import VideoOutput.Controller.Error
import VideoOutput.Settings.Basic

/-!
# The controller

The controller owns the connectors and the event queue and talks to the firmware. It is active from
a successful start to the next stop; every start begins a new generation, in which only handles of
that generation are accepted.

`resolve` is the one place where a handle is judged: first whether the controller is active, then
the generation, then whether the connector exists. A request that only HDMI is able to serve is
judged by `resolveHdmi`, which asks `resolve` first, so that a stale handle is told to be stale and
not that it lacks an ability.

A controller is a value. A request takes one and gives back another, together with what the firmware
has become, the result and the log entries (`Outcome`); nothing is shared and nothing runs beside
it. What another thread would do between two requests, such as pushing a notice, is a step of its
own in a run. The queue is known to displays by its identity only (`queueId`), which stands for the
reference that they would hold.

Settings that do not pass the check make no controller. The limit of the queue, the catalog and the
policy are fixed from then on.
-/

namespace VideoOutput

/-- What tells one callback from another. What a callback does is not modelled: it is told of an
event, and nothing it does can be seen by the dispatch that calls it. A dispatch has taken all waiting
notices out of the queue before it calls anyone, so a notice that a callback pushes is one that is
pushed after the dispatch, and it waits for the next one. -/
abbrev CallbackId := String

/-- The connectors with their queue and callbacks. -/
structure Controller where
  catalog : Mode.Catalog
  checksum : Edid.ChecksumPolicy
  connectors : List Connector
  queueId : Connector.QueueId
  queue : Connector.Queue
  isActive : Bool := false
  generation : UInt32 := 0
  displayCallback : Option CallbackId := none
  hdcpCallback : Option CallbackId := none

namespace Controller

/-- The connectors of a kind, counted from zero. -/
def connectorsOf (kind : Connector.Kind) (count : UInt8) : List Connector :=
  (List.range count.toNat).map fun index => { kind, index := UInt8.ofNat index }

/-- A controller that was never started. -/
def ofSettings (queueId : Connector.QueueId) (settings : Settings) :
    Except SettingsError Controller :=
  match settings.check with
  | .error e => .error e
  | .ok _ =>
    match settings.catalog with
    | .error e => .error e
    | .ok catalog =>
      .ok {
        catalog
        checksum := settings.checksum
        connectors :=
          connectorsOf .hdmi settings.hdmiCount ++ connectorsOf .composite settings.compositeCount
        queueId
        queue := { limit := settings.queueLimit } }

/-- The controller has an HDMI connector. -/
def hasHdmi (c : Controller) : Bool :=
  c.connectors.any fun connector => connector.kind == .hdmi

/-- The connector that a handle names. -/
def resolve (c : Controller) (h : Handle) : Except Error Connector :=
  if !c.isActive then .error .notActive
  else if h.generation ≠ c.generation then .error .staleHandle
  else
    match c.connectors.find? fun connector => connector.isNamedBy h with
    | some connector => .ok connector
    | none => .error .noConnector

/-- The handle of a connector in the current generation. -/
def handle (c : Controller) (kind : Connector.Kind) (index : UInt8) : Except Error Handle :=
  let h : Handle := ⟨kind, index, c.generation⟩
  (c.resolve h).map fun _ => h

/-- The connector that a handle names, which must be an HDMI connector to have the ability. -/
def resolveHdmi (c : Controller) (h : Handle) (ability : Ability) : Except Error Connector :=
  match c.resolve h with
  | .error e => .error e
  | .ok connector =>
    match connector.kind with
    | .hdmi => .ok connector
    | .composite => .error (.unsupported ability)

/-- Change the connector that a handle names. -/
def modify (c : Controller) (h : Handle) (change : Connector → Connector) : Controller :=
  { c with
    connectors := c.connectors.map fun connector =>
      if connector.isNamedBy h then change connector else connector }

/-- Take everything out of the queue. -/
def emptyQueue (c : Controller) : Controller :=
  { c with queue := c.queue.emptied }

/-- Put a notice into the queue. -/
def push (c : Controller) (notice : Connector.Notice) : Controller :=
  { c with queue := c.queue.push notice }

/-- What a request leaves behind. -/
structure Outcome (σ α : Type) where
  result : Except Error α
  controller : Controller
  firmware : σ
  log : List Log.Entry := []

/-- A request that only reads the controller. -/
def reading {σ α : Type} (c : Controller) (fw : σ) (result : Except Error α) : Outcome σ α :=
  ⟨result, c, fw, []⟩

end Controller

end VideoOutput
