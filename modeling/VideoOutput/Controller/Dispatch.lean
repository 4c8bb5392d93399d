import VideoOutput.Controller.Basic

/-!
# Callbacks and dispatch

Notices are applied when their owner asks for it. `dispatch` takes all notices out of the queue;
those for an existing HDMI connector change it and are passed on to the callback registered for
their class, all others are discarded. While the controller is inactive every notice is discarded.

There is one callback for each class of events, and registering another one replaces it. A stop
forgets both, and nothing else does. A notice without a callback for its class is delivered all the
same: it changes its connector and is counted, and only the call is missing.

Callbacks are observers here. `dispatch` answers which calls are made, in which order and with what,
and the controller after it does not depend on them. The order of the two does not matter: the
notices are out of the queue before the first call, and a callback has no way to change connectors. A
callback that pushes a notice has it wait for the next dispatch, as if it had been pushed right after
this one, and so a run describes it: as a step behind the dispatch.
-/

namespace VideoOutput.Controller

/-- The callback registered for a class. -/
def callback? (c : Controller) : Connector.EventClass → Option CallbackId
  | .display => c.displayCallback
  | .hdcp => c.hdcpCallback

/-- Store the callback of a class. -/
def withCallback (c : Controller) (id : CallbackId) : Connector.EventClass → Controller
  | .display => { c with displayCallback := some id }
  | .hdcp => { c with hdcpCallback := some id }

/-- Register a callback until the next stop, in place of an earlier one of its class. -/
def register {σ : Type} (c : Controller) (fw : σ) (eventClass : Connector.EventClass)
    (id : CallbackId) : Outcome σ Unit :=
  if !c.isActive then c.reading fw (.error .notActive)
  else
    let log := if (c.callback? eventClass).isSome then
        [⟨.warn, "replacing previously registered event callback",
          [("class", .text eventClass.label)]⟩]
      else []
    ⟨.ok (), c.withCallback id eventClass, fw, log⟩

/-- One invocation of a callback. -/
structure Call where
  callback : CallbackId
  handle : Handle
  event : Connector.Event
  deriving DecidableEq

/-- The handle of the HDMI connector that a notice is about. -/
def noticeHandle (c : Controller) (notice : Connector.Notice) : Handle :=
  ⟨.hdmi, notice.index, c.generation⟩

/-- The notice is about an existing connector and the controller is active. -/
def delivers (c : Controller) (notice : Connector.Notice) : Bool :=
  c.isActive && c.connectors.any fun connector => connector.isNamedBy (c.noticeHandle notice)

/-- Change the connector that a notice is about. -/
def applyNotice (c : Controller) (notice : Connector.Notice) : Controller :=
  c.modify (c.noticeHandle notice) fun connector => connector.apply notice.event

/-- The invocation that a notice causes. -/
def call? (c : Controller) (notice : Connector.Notice) : Option Call :=
  (c.callback? notice.event.eventClass).map fun id =>
    ⟨id, c.noticeHandle notice, notice.event⟩

/-- The entry for a notice that is discarded. -/
def discardedLog (c : Controller) (notice : Connector.Notice) : List Log.Entry :=
  if !c.isActive then
    [⟨.debug, "dropping display event while uninitialized",
      [("event", .text notice.event.label)]⟩]
  else if c.delivers notice then []
  else
    [⟨.debug, "dropping event for unknown HDMI port",
      [("index", .number notice.index.toNat)]⟩]

/-- What a dispatch did. -/
structure Dispatched where
  /-- The number of notices that were about an existing connector. -/
  delivered : Nat
  calls : List Call
  deriving DecidableEq

/-- The notices in the queue that will be delivered. -/
def deliverable (c : Controller) : List Connector.Notice :=
  c.queue.waiting.filter c.delivers

/-- Apply the waiting notices and call the callbacks, which are observers: what one of them pushes
counts as pushed after the dispatch. -/
def dispatch (c : Controller) : Controller × Dispatched :=
  (c.deliverable.foldl applyNotice c.emptyQueue,
    ⟨c.deliverable.length, c.deliverable.filterMap c.call?⟩)

/-- The entries for the notices that a dispatch discards. -/
def dispatchLog (c : Controller) : List Log.Entry :=
  c.queue.waiting.flatMap c.discardedLog

end VideoOutput.Controller
