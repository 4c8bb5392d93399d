import VideoOutput.Proofs.Setup

/-!
# What a request can do

`Effect` lists, once, everything a request can do to a controller and to the firmware behind it,
with the guards under which it happens. Each operation is shown to have one of these effects
(`perform_isEffect`); an invariant is then a case analysis over `Effect` and never opens an
operation again. When an operation changes, its own lemma here has to change, and the invariants
only where the list of effects does.

The list is over every firmware, so each call may answer or fail as it likes. A question leaves no
other trace in the firmware than that it was asked (`Firmware.Asked`); over a simulated display that
is no trace at all, but a firmware may count its calls, as the watched firmware of a later module
does.

The guards are stated with the effects because the invariants need them. A handle is accepted only
by an active controller whose number of starts it carries (`resolve_eq_ok_iff`), a mode is set only
on an HDMI connector, and the flag and the resolution of a connector are written only behind a call
that succeeded. Reading the identity is the one request that changes a connector although it fails:
it has forgotten by then what the display accepts (`forgotten`).
-/

namespace VideoOutput

variable {σ : Type} [Firmware σ]

/-- The states that a firmware can be in after it was asked any number of questions. -/
inductive Firmware.Asked (fw : σ) : σ → Prop where
  | nothing : Asked fw fw
  | blob {fw' : σ} : Asked fw fw' → Asked fw (Firmware.readBlob fw').state
  | link {fw' : σ} : Asked fw fw' → Asked fw (Firmware.linkState fw').state
  | modes {fw' : σ} : Asked fw fw' → Asked fw (Firmware.modes fw').state

namespace Controller

theorem exists_of_map_eq_ok {ε α β : Type} {f : α → β} {result : Except ε α} {b : β}
    (h : result.map f = .ok b) : ∃ a, result = .ok a ∧ f a = b := by
  cases result with
  | error e => exact absurd h (by simp [Except.map])
  | ok a => exact ⟨a, rfl, Except.ok.inj h⟩

/-! ## Accepted handles -/

/-- A handle names the connector of its kind at its index; the cycle it was made in plays no part
here. -/
theorem isNamedBy_iff {x : Connector} {h : Handle} :
    x.isNamedBy h = true ↔ x.kind = h.kind ∧ x.index = h.index := by
  simp [Connector.isNamedBy]

/-- A handle is accepted exactly while its generation lasts, if it names a connector. -/
theorem resolve_eq_ok_iff {c : Controller} {h : Handle} {x : Connector} :
    c.resolve h = .ok x ↔
      c.isActive = true ∧ h.generation = c.generation ∧
        c.connectors.find? (fun connector => connector.isNamedBy h) = some x := by
  unfold resolve
  cases hact : c.isActive with
  | false => simp
  | true =>
    by_cases hgen : h.generation = c.generation
    · cases hfind : c.connectors.find? fun connector => connector.isNamedBy h <;> simp [hgen]
    · simp [hgen]

theorem isActive_of_resolve {c : Controller} {h : Handle} {x : Connector}
    (hr : c.resolve h = .ok x) : c.isActive = true :=
  (resolve_eq_ok_iff.mp hr).1

/-- The connector that a handle is resolved to is one of the controller's own. -/
theorem mem_of_resolve {c : Controller} {h : Handle} {x : Connector}
    (hr : c.resolve h = .ok x) : x ∈ c.connectors :=
  List.mem_of_find?_eq_some (resolve_eq_ok_iff.mp hr).2.2

theorem named_of_resolve {c : Controller} {h : Handle} {x : Connector}
    (hr : c.resolve h = .ok x) : x.kind = h.kind ∧ x.index = h.index :=
  isNamedBy_iff.mp
    (List.find?_some (p := fun connector : Connector => connector.isNamedBy h)
      (resolve_eq_ok_iff.mp hr).2.2)

/-- A request that only HDMI is able to serve accepts the same handles, less those of composite
connectors. -/
theorem resolveHdmi_eq_ok_iff {c : Controller} {h : Handle} {ability : Ability} {x : Connector} :
    c.resolveHdmi h ability = .ok x ↔ c.resolve h = .ok x ∧ x.kind = .hdmi := by
  unfold resolveHdmi
  cases hr : c.resolve h with
  | error e => simp
  | ok y =>
    dsimp only
    cases hk : y.kind with
    | hdmi =>
      refine ⟨fun e => ?_, fun e => e.1⟩
      injection e with e
      exact ⟨congrArg Except.ok e, e ▸ hk⟩
    | composite =>
      refine ⟨fun e => absurd e (by simp), fun e => ?_⟩
      have hx : x.kind = .composite := Except.ok.inj e.1 ▸ hk
      exact absurd (hx.symm.trans e.2) (by simp)

/-- Of two changes to the accepted resolutions the second counts. -/
theorem remember_remember (c : Controller) (h : Handle) (a b : Option (List Mode.Resolution)) :
    (c.remember h a).remember h b = c.remember h b := by
  unfold remember modify
  simp only [List.map_map]
  congr 1
  apply List.map_congr_left
  intro x _
  by_cases hx : x.isNamedBy h = true
  · have hx' : ({ x with accepted := a } : Connector).isNamedBy h = true := hx
    simp [hx, hx']
  · simp [hx]

/-! ## The list of effects -/

/-- The request is a question: if it changes the controller at all, then by remembering what the
firmware said. -/
def HandleRequest.isQuestion : HandleRequest → Bool
  | .setEnabled _ | .setResolution _ | .readIdentity _ => false
  | _ => true

/-- A request that is a question, or the request for a handle. -/
def Request.isQuestion : Request → Bool
  | .handle _ _ => true
  | .on _ request => request.isQuestion
  | _ => false

/-- The answer of the firmware, once started, on which a start depends. -/
def askedAtStart (c : Controller) (fw : σ) : Firmware.Reply σ Bool :=
  c.askConnected (Firmware.attach c.queueId (Firmware.start fw).state)

/-- What a request can do: its answer, and the controller and the firmware it leaves behind. -/
inductive Effect (c : Controller) (fw : σ) :
    Request → Except Error Answer → Controller → σ → Prop where
  /-- Nothing was called. -/
  | refused {r : Request} (e : Error) : Effect c fw r (.error e) c fw
  | asked {r : Request} {fw' : σ} (answer : Except Error Answer) (hr : r.isQuestion = true)
      (ha : Firmware.Asked fw fw') : Effect c fw r answer c fw'
  | startRefused {failure : Firmware.Failure} (hact : c.isActive = false)
      (hs : (Firmware.start fw).answer = .error failure) :
      Effect c fw .start (.error (.firmware failure)) c (Firmware.start fw).state
  | linkRefused {failure : Firmware.Failure} (hact : c.isActive = false)
      (hs : (Firmware.start fw).answer = .ok ())
      (hl : (c.askedAtStart fw).answer = .error failure) :
      Effect c fw .start (.error (.firmware failure)) c.emptyQueue
        (Firmware.stop (c.askedAtStart fw).state)
  | started {isConnected : Bool} (hact : c.isActive = false)
      (hs : (Firmware.start fw).answer = .ok ())
      (hl : (c.askedAtStart fw).answer = .ok isConnected) :
      Effect c fw .start (.ok .done) (c.emptyQueue.activated isConnected)
        (c.askedAtStart fw).state
  | stopped (hact : c.isActive = true) :
      Effect c fw .stop (.ok .done) c.deactivated (Firmware.stop fw)
  | switchRefused {h : Handle} {x : Connector} {enabled : Bool} {failure : Firmware.Failure}
      (hr : c.resolve h = .ok x)
      (ha : (Firmware.setEnabled h.kind enabled fw).answer = .error failure) :
      Effect c fw (.on h (.setEnabled enabled)) (.error (.firmware failure)) c
        (Firmware.setEnabled h.kind enabled fw).state
  | switched {h : Handle} {x : Connector} {enabled : Bool} (hr : c.resolve h = .ok x)
      (ha : (Firmware.setEnabled h.kind enabled fw).answer = .ok ()) :
      Effect c fw (.on h (.setEnabled enabled)) (.ok .done)
        (c.modify h fun connector => { connector with enabled })
        (Firmware.setEnabled h.kind enabled fw).state
  | modeRefused {h : Handle} {x : Connector} {name : String} {failure : Firmware.Failure}
      (hr : c.resolve h = .ok x) (hk : x.kind = .hdmi)
      (ha : (Firmware.setMode (c.catalog.codeOf name) fw).answer = .error failure) :
      Effect c fw (.on h (.setResolution name)) (.error (.firmware failure)) c
        (Firmware.setMode (c.catalog.codeOf name) fw).state
  | modeSet {h : Handle} {x : Connector} {name : String} (hr : c.resolve h = .ok x)
      (hk : x.kind = .hdmi)
      (ha : (Firmware.setMode (c.catalog.codeOf name) fw).answer = .ok ()) :
      Effect c fw (.on h (.setResolution name)) (.ok .done)
        (c.modify h fun connector =>
          { connector with requested := c.catalog.resolutionOf? (c.catalog.codeOf name) })
        (Firmware.setMode (c.catalog.codeOf name) fw).state
  /-- The identification data were to be read and something failed. -/
  | forgotten {h : Handle} {x : Connector} {currentYear : Nat} {fw' : σ} (e : Error)
      (hr : c.resolve h = .ok x) (hk : x.kind = .hdmi) (ha : Firmware.Asked fw fw') :
      Effect c fw (.on h (.readIdentity currentYear)) (.error e) (c.remember h none) fw'
  /-- What the firmware answered is remembered. -/
  | remembered {h : Handle} {x : Connector} {r : HandleRequest} {fw' : σ} (answer : Answer)
      (codes : List Mode.ModeCode) (hreq : r = .accepted ∨ ∃ currentYear, r = .readIdentity currentYear)
      (hr : c.resolve h = .ok x) (hk : x.kind = .hdmi) (ha : Firmware.Asked fw fw')
      (hm : ∃ asked, Firmware.Asked fw asked ∧ (Firmware.modes asked).answer = .ok codes) :
      Effect c fw (.on h r) (.ok answer) (c.remember h (some (c.catalog.accepted codes))) fw'
  | registered {eventClass : Connector.EventClass} {id : CallbackId} (hact : c.isActive = true) :
      Effect c fw (.register eventClass id) (.ok .done) (c.withCallback id eventClass) fw
  | dispatched : Effect c fw .dispatch (.ok (.dispatched c.dispatch.2)) c.dispatch.1 fw

/-! ## Every request has one of the effects -/

/-- The outcome is an effect of the request. -/
def Outcome.IsEffect (c : Controller) (fw : σ) (r : Request) (o : Outcome σ Answer) : Prop :=
  Effect c fw r o.result o.controller o.firmware

/-- What a start asks of the firmware, in the form in which `start` asks it. -/
theorem askedAtStart_eq (c : Controller) (fw : σ) :
    c.emptyQueue.askConnected (Firmware.attach c.queueId (Firmware.start fw).state) =
      c.askedAtStart fw := rfl

/-- A start fails at the firmware, or at the link and then the firmware is stopped again, or begins
a generation over an empty queue. On an active controller it is refused. -/
theorem start_isEffect (c : Controller) (fw : σ) :
    (c.perform fw .start).IsEffect c fw .start := by
  show ((c.start fw).answering fun _ => .done).IsEffect c fw .start
  unfold start
  cases hact : c.isActive with
  | true => exact .refused .alreadyActive
  | false =>
    simp only [Bool.false_eq_true, if_false]
    cases hs : (Firmware.start fw).answer with
    | error failure => exact .startRefused hact hs
    | ok _ =>
      dsimp only
      rw [show c.emptyQueue.queueId = c.queueId from rfl, askedAtStart_eq]
      cases hl : (c.askedAtStart fw).answer with
      | error failure => exact .linkRefused hact hs hl
      | ok isConnected => exact .started hact hs hl

/-- A stop resets the connectors, forgets the callbacks and ends the firmware, whose call cannot
fail. On an inactive controller it is refused. -/
theorem stop_isEffect (c : Controller) (fw : σ) : (c.perform fw .stop).IsEffect c fw .stop := by
  show ((c.stop fw).answering fun _ => .done).IsEffect c fw .stop
  unfold stop
  cases hact : c.isActive with
  | false => exact .refused .notActive
  | true => exact .stopped hact

theorem register_isEffect (c : Controller) (fw : σ) (eventClass : Connector.EventClass)
    (id : CallbackId) :
    (c.perform fw (.register eventClass id)).IsEffect c fw (.register eventClass id) := by
  show ((c.register fw eventClass id).answering fun _ => .done).IsEffect c fw _
  unfold register
  cases hact : c.isActive with
  | false => exact .refused .notActive
  | true => exact .registered hact

/-- The flag of the connector is written only behind a call that succeeded. -/
theorem setEnabled_isEffect (c : Controller) (fw : σ) (h : Handle) (enabled : Bool) :
    (c.perform fw (.on h (.setEnabled enabled))).IsEffect c fw (.on h (.setEnabled enabled)) := by
  show ((c.setEnabled fw h enabled).answering fun _ => .done).IsEffect c fw _
  unfold setEnabled
  cases hr : c.resolve h with
  | error e => exact .refused e
  | ok x =>
    dsimp only
    cases ha : (Firmware.setEnabled h.kind enabled fw).answer with
    | error failure => exact .switchRefused hr ha
    | ok _ => exact .switched hr ha

/-- A name always has a mode, if need be that of the fallback. The resolution is noted only behind a
call that accepted this mode. -/
theorem setResolution_isEffect (c : Controller) (fw : σ) (h : Handle) (name : String) :
    (c.perform fw (.on h (.setResolution name))).IsEffect c fw (.on h (.setResolution name)) := by
  show ((c.setResolution fw h name).answering fun _ => .done).IsEffect c fw _
  unfold setResolution
  cases hr : c.resolveHdmi h .changeResolution with
  | error e => exact .refused e
  | ok x =>
    obtain ⟨hres, hk⟩ := resolveHdmi_eq_ok_iff.mp hr
    dsimp only
    cases ha : (Firmware.setMode (c.catalog.codeOf name) fw).answer with
    | error failure => exact .modeRefused hres hk ha
    | ok _ => exact .modeSet hres hk ha

/-- Reading the identity forgets what the display accepts, and only a blob that decodes and an
answer to the second call make the controller remember it again. -/
theorem readIdentity_isEffect (c : Controller) (fw : σ) (h : Handle) (currentYear : Nat) :
    (c.perform fw (.on h (.readIdentity currentYear))).IsEffect c fw
      (.on h (.readIdentity currentYear)) := by
  show ((c.readIdentity fw h currentYear).answering .identity).IsEffect c fw _
  unfold readIdentity
  cases hr : c.resolveHdmi h .readIdentity with
  | error e => exact .refused e
  | ok x =>
    obtain ⟨hres, hk⟩ := resolveHdmi_eq_ok_iff.mp hr
    have hread : Firmware.Asked fw (Firmware.readBlob fw).state := .blob .nothing
    -- what was accepted is forgotten before anything is read, so every failure is `forgotten`
    dsimp only
    cases ha : (Firmware.readBlob fw).answer with
    | error failure => exact .forgotten _ hres hk hread
    | ok bytes =>
      dsimp only
      rw [show (c.remember h none).checksum = c.checksum from rfl]
      cases hd : Edid.decode c.checksum currentYear bytes with
      | error cause => exact .forgotten _ hres hk hread
      | ok identity =>
        -- the codes are asked for once the blob is read; of the two changes the last one counts
        simp only [askAccepted, show (c.remember h none).catalog = c.catalog from rfl,
          remember_remember]
        cases hm : (Firmware.modes (Firmware.readBlob fw).state).answer with
        | error failure => exact .forgotten _ hres hk (.modes hread)
        | ok codes =>
          exact .remembered _ codes (.inr ⟨currentYear, rfl⟩) hres hk (.modes hread) ⟨_, hread, hm⟩

/-- The accepted resolutions are asked for once and remembered, so a second request makes no call.
-/
theorem accepted_isEffect (c : Controller) (fw : σ) (h : Handle) :
    (c.perform fw (.on h .accepted)).IsEffect c fw (.on h .accepted) := by
  show ((c.accepted fw h).answering .resolutions).IsEffect c fw _
  unfold accepted
  cases hr : c.resolveHdmi h .listResolutions with
  | error e => exact .refused e
  | ok x =>
    obtain ⟨hres, hk⟩ := resolveHdmi_eq_ok_iff.mp hr
    dsimp only
    cases x.accepted with
    | some known => exact .asked _ rfl .nothing
    | none =>
      simp only [askAccepted]
      cases hm : (Firmware.modes fw).answer with
      | error failure => exact .asked _ rfl (.modes .nothing)
      | ok codes =>
        exact .remembered _ codes (.inl rfl) hres hk (.modes .nothing) ⟨_, .nothing, hm⟩

/-- A question that was refused, or that one call to the firmware answers, leaves the controller
alone. -/
theorem question_isEffect (c : Controller) (fw : σ) (h : Handle) (r : HandleRequest)
    (hq : r.isQuestion = true) (hne : r ≠ .accepted) :
    (c.perform fw (.on h r)).IsEffect c fw (.on h r) := by
  cases r with
  | setEnabled | setResolution | readIdentity => exact absurd hq (by simp [HandleRequest.isQuestion])
  | accepted => exact absurd rfl hne
  | state | isEnabled | isDisplayConnected | requested | hdcp | controlHdcp =>
    exact .asked _ rfl .nothing
  | resolution =>
    show ((c.resolution fw h).answering .resolution).IsEffect c fw _
    unfold resolution
    cases hr : c.resolveHdmi h .tellResolution with
    | error e => exact .refused e
    | ok x =>
      dsimp only
      -- the controller is the same whatever is answered
      cases hl : (Firmware.linkState fw).answer with
      | error failure => exact .asked _ rfl (.link .nothing)
      | ok link =>
        dsimp only
        cases c.catalog.resolutionOf? link.mode with
        | some r => exact .asked _ rfl (.link .nothing)
        | none => exact .asked _ rfl (.link .nothing)
  | blob =>
    show ((c.blob fw h).answering .blob).IsEffect c fw _
    unfold blob
    cases hr : c.resolveHdmi h .readIdentity with
    | error e => exact .refused e
    | ok x => exact .asked _ rfl (.blob .nothing)
  | geometries =>
    show ((c.geometries fw h).answering .geometries).IsEffect c fw _
    unfold geometries
    cases hr : c.resolveHdmi h .listResolutions with
    | error e => exact .refused e
    | ok x => exact .asked _ rfl (.modes .nothing)
  | aspect =>
    show ((c.aspect fw h).answering .aspect).IsEffect c fw _
    unfold aspect
    cases hr : c.resolveHdmi h .tellAspect with
    | error e => exact .refused e
    | ok x => exact .asked _ rfl (.link .nothing)

/-- **Everything a request can do** is on the list of effects. -/
theorem perform_isEffect (c : Controller) (fw : σ) (r : Request) :
    (c.perform fw r).IsEffect c fw r := by
  cases r with
  | start => exact start_isEffect c fw
  | stop => exact stop_isEffect c fw
  | handle kind index => exact .asked _ rfl .nothing
  | register eventClass id => exact register_isEffect c fw eventClass id
  | dispatch => exact .dispatched
  | on h r =>
    cases r with
    | setEnabled enabled => exact setEnabled_isEffect c fw h enabled
    | setResolution name => exact setResolution_isEffect c fw h name
    | readIdentity currentYear => exact readIdentity_isEffect c fw h currentYear
    | accepted => exact accepted_isEffect c fw h
    | _ => exact question_isEffect c fw h _ rfl (by simp)

/-- No request touches what the controller was set up with. -/
theorem Effect.sameSetup {c c' : Controller} {fw fw' : σ} {r : Request}
    {answer : Except Error Answer} (he : Effect c fw r answer c' fw') : SameSetup c c' := by
  cases he with
  | refused | asked | startRefused | switchRefused | modeRefused => exact .refl c
  | linkRefused => exact sameSetup_emptyQueue c
  | started => exact ⟨rfl, rfl, rfl, rfl, places_reset c.connectors _⟩
  | stopped => exact ⟨rfl, rfl, rfl, rfl, places_reset c.connectors _⟩
  | switched | modeSet | forgotten | remembered => exact sameSetup_modify c _ fun x => rfl
  | registered => exact sameSetup_withCallback c _ _
  | dispatched => exact sameSetup_dispatch c

end Controller

end VideoOutput
