import VideoOutput.Proofs.Handles

/-!
# A watched firmware

`Watched` is any firmware with a note of every call that was made to it and of the failure that the
call was answered with. Watching changes nothing: every call is passed on, so a request on a
connector has over a watched firmware the outcome that it has without (`Mirrors.same`).

With the notes it can be said who is to blame for a failed request. `performOn_mirrors` says it for
every request whose handle is accepted and whose connector is able to do it: the failure of the
first call that failed is the error of the request, and if no call failed, then the request fails
only for a reason of its own (`OwnError`).

`Mirrors` compares the two outcomes of one operation, the watched one and the plain one. It has four
introduction rules, one for each way an operation ends: it succeeded, a call failed, it failed for a
reason of its own, or it wraps the result of another. The lemma of an operation splits on the answer
of its call and names the rule. The first failing call is asked for and not the only one, because
that an operation stops at its first failure is part of what is shown.
-/

namespace VideoOutput

namespace Firmware

/-- A call to the firmware. -/
inductive Call where
  | start
  | stop
  | readBlob
  | linkState
  | modes
  | setMode (code : Mode.ModeCode)
  | setEnabled (kind : Connector.Kind) (enabled : Bool)
  | attach (queue : Connector.QueueId)
  deriving DecidableEq

/-- A call that was made, with the failure that it was answered with, if it failed. -/
structure Note where
  call : Call
  failure? : Option Failure := none
  deriving DecidableEq

/-- The failure of the first call that failed. -/
def firstFailure? (notes : List Note) : Option Failure :=
  notes.findSome? Note.failure?

/-- A firmware with the calls made to it so far, in order. -/
structure Watched (σ : Type) where
  inner : σ
  notes : List Note := []

namespace Watched

/-- The failure in an answer. -/
def failureOf {α : Type} : Except Failure α → Option Failure
  | .ok _ => none
  | .error failure => some failure

/-- What is made of an answer does not change whether it was a failure. -/
theorem failureOf_map {α β : Type} (answer : Except Failure α) (f : α → β) :
    failureOf (answer.map f) = failureOf answer := by
  cases answer <;> rfl

/-- The reply to a call that was passed on, noted with its answer. -/
def noting {σ α : Type} (w : Watched σ) (call : Call) (reply : Reply σ α) : Reply (Watched σ) α :=
  ⟨reply.answer, ⟨reply.state, w.notes ++ [⟨call, failureOf reply.answer⟩]⟩, reply.log⟩

/-- The firmware after a call that is not answered. -/
def noted {σ : Type} (w : Watched σ) (call : Call) (inner : σ) : Watched σ :=
  ⟨inner, w.notes ++ [⟨call, none⟩]⟩

instance {σ : Type} [Firmware σ] : Firmware (Watched σ) where
  start w := w.noting .start (start w.inner)
  stop w := w.noted .stop (stop w.inner)
  readBlob w := w.noting .readBlob (readBlob w.inner)
  linkState w := w.noting .linkState (linkState w.inner)
  modes w := w.noting .modes (modes w.inner)
  setMode code w := w.noting (.setMode code) (setMode code w.inner)
  setEnabled kind enabled w :=
    w.noting (.setEnabled kind enabled) (setEnabled kind enabled w.inner)
  attach queue w := w.noted (.attach queue) (attach queue w.inner)

variable {σ : Type} [Firmware σ]

/-- Watching a call is making it and noting what came of it; the same of the calls that follow. -/
theorem readBlob_eq (w : Watched σ) :
    Firmware.readBlob w = w.noting .readBlob (Firmware.readBlob w.inner) := rfl

theorem linkState_eq (w : Watched σ) :
    Firmware.linkState w = w.noting .linkState (Firmware.linkState w.inner) := rfl

theorem modes_eq (w : Watched σ) :
    Firmware.modes w = w.noting .modes (Firmware.modes w.inner) := rfl

theorem setMode_eq (w : Watched σ) (code : Mode.ModeCode) :
    Firmware.setMode code w = w.noting (.setMode code) (Firmware.setMode code w.inner) := rfl

theorem setEnabled_eq (w : Watched σ) (kind : Connector.Kind) (enabled : Bool) :
    Firmware.setEnabled kind enabled w =
      w.noting (.setEnabled kind enabled) (Firmware.setEnabled kind enabled w.inner) := rfl

end Watched

end Firmware

open Firmware (Watched firstFailure?)

namespace Controller

variable {σ : Type} {c : Controller} {h : Handle}

/-- An outcome over a watched firmware without the notes. -/
def Outcome.unwatched {α : Type} (o : Outcome (Watched σ) α) : Outcome σ α :=
  ⟨o.result, o.controller, o.firmware.inner, o.log⟩

/-- The outcome over a watched firmware is the one over the firmware itself, and the notes tell who
is to blame if it is an error: the first call that failed, or, if none did, a reason of the
request's own. -/
structure Mirrors {α : Type} (own : Error → Prop) (watched : Outcome (Watched σ) α)
    (plain : Outcome σ α) : Prop where
  same : watched.unwatched = plain
  blames : ∀ failure, firstFailure? watched.firmware.notes = some failure →
    plain.result = .error (.firmware failure)
  own : firstFailure? watched.firmware.notes = none → ∀ e, plain.result = .error e → own e

section Leaves

variable {α : Type} {own : Error → Prop} {w : Watched σ}

/-- A request that succeeds, all of its calls having been answered. -/
theorem mirrors_ok (hnotes : firstFailure? w.notes = none) (a : α) (c : Controller)
    (log : List Log.Entry) : Mirrors own ⟨.ok a, c, w, log⟩ ⟨.ok a, c, w.inner, log⟩ := by
  refine ⟨rfl, fun failure hf => ?_, fun _ e he => ?_⟩
  · exact absurd (hnotes.symm.trans hf) (by simp)
  · exact absurd he (by simp)

/-- A request that fails with the failure of the first call that failed. -/
theorem mirrors_failure {failure : Firmware.Failure}
    (hnotes : firstFailure? w.notes = some failure) (c : Controller) (log : List Log.Entry) :
    Mirrors (α := α) own ⟨.error (.firmware failure), c, w, log⟩
      ⟨.error (.firmware failure), c, w.inner, log⟩ := by
  refine ⟨rfl, fun failure' hf => ?_, fun hnone => ?_⟩
  · obtain rfl := Option.some.inj (hnotes.symm.trans hf)
    rfl
  · exact absurd (hnotes.symm.trans hnone) (by simp)

/-- A request that fails for a reason of its own, all of its calls having been answered. -/
theorem mirrors_own {e : Error} (he : own e) (hnotes : firstFailure? w.notes = none)
    (c : Controller) (log : List Log.Entry) :
    Mirrors (α := α) own ⟨.error e, c, w, log⟩ ⟨.error e, c, w.inner, log⟩ := by
  refine ⟨rfl, fun failure hf => ?_, fun _ e' he' => ?_⟩
  · exact absurd (hnotes.symm.trans hf) (by simp)
  · obtain rfl := Except.error.inj he'
    exact he

/-- A request that hands on what its only call was answered with. -/
theorem mirrors_answer {β : Type} (fw : σ) (call : Firmware.Call) {reply : Firmware.Reply σ β}
    {answer : Except Firmware.Failure α}
    (hsame : Watched.failureOf answer = Watched.failureOf reply.answer) (c : Controller) :
    Mirrors own
      ⟨answer.mapError Error.firmware, c, ((Watched.mk fw []).noting call reply).state, reply.log⟩
      ⟨answer.mapError Error.firmware, c, reply.state, reply.log⟩ := by
  have hnotes : firstFailure? ((Watched.mk fw []).noting call reply).state.notes =
      Watched.failureOf answer := by
    rw [hsame]
    simp [Watched.noting, firstFailure?]
  cases answer with
  | ok a => exact mirrors_ok hnotes a c reply.log
  | error failure => exact mirrors_failure hnotes c reply.log

theorem Mirrors.answering {watched : Outcome (Watched σ) α} {plain : Outcome σ α}
    (hm : Mirrors own watched plain) (wrap : α → Answer) :
    Mirrors own (watched.answering wrap) (plain.answering wrap) := by
  obtain ⟨rfl, hblames, hown⟩ := hm
  refine ⟨rfl, fun failure hf => ?_, fun hnone e he => ?_⟩
  · show watched.result.map wrap = .error (.firmware failure)
    rw [show watched.result = .error (.firmware failure) from hblames failure hf]
    rfl
  · refine hown hnone e ?_
    have hmap : watched.result.map wrap = .error e := he
    show watched.result = .error e
    cases hr : watched.result with
    | ok a =>
      rw [hr] at hmap
      exact absurd hmap (by simp [Except.map])
    | error e' =>
      rw [hr] at hmap
      exact congrArg _ (Except.error.inj hmap)

end Leaves

variable [Firmware σ]

/-- The reasons for which a request fails although every call was answered. -/
inductive OwnError (c : Controller) (fw : σ) : HandleRequest → Error → Prop where
  /-- The identification data cannot be read. -/
  | unreadable {currentYear : Nat} {bytes : List UInt8} {cause : Edid.ReadError}
      (hblob : (Firmware.readBlob fw).answer = .ok bytes)
      (hdecode : Edid.decode c.checksum currentYear bytes = .error cause) :
      OwnError c fw (.readIdentity currentYear) (.unreadable cause)
  /-- The mode in use has no resolution. -/
  | unmappedMode {link : Firmware.LinkState} (hlink : (Firmware.linkState fw).answer = .ok link)
      (hnone : c.catalog.resolutionOf? link.mode = none) :
      OwnError c fw .resolution (.unmappedMode link.mode)

/-! ## The requests one by one -/

variable {x : Connector}

/-- Switching makes a single call, whose failure is the error of the request. -/
theorem setEnabled_mirrors (hr : c.resolve h = .ok x) (fw : σ) (enabled : Bool)
    (own : Error → Prop) :
    Mirrors own (c.setEnabled (Watched.mk fw []) h enabled) (c.setEnabled fw h enabled) := by
  simp only [setEnabled, hr, Watched.setEnabled_eq, Watched.noting]
  cases (Firmware.setEnabled h.kind enabled fw).answer with
  | ok _ => exact mirrors_ok rfl () _ _
  | error failure => exact mirrors_failure rfl _ _

/-- Setting a resolution makes a single call, as every name has a mode. -/
theorem setResolution_mirrors (hr : c.resolveHdmi h .changeResolution = .ok x) (fw : σ)
    (name : String) (own : Error → Prop) :
    Mirrors own (c.setResolution (Watched.mk fw []) h name) (c.setResolution fw h name) := by
  simp only [setResolution, hr, Watched.setMode_eq, Watched.noting]
  cases (Firmware.setMode (c.catalog.codeOf name) fw).answer with
  | ok _ => exact mirrors_ok rfl () _ _
  | error failure => exact mirrors_failure rfl _ _

/-- Asking for the resolution makes one call; the request fails on its own where the mode of the
display has no name. -/
theorem resolution_mirrors (hr : c.resolveHdmi h .tellResolution = .ok x) (fw : σ) :
    Mirrors (OwnError c fw .resolution) (c.resolution (Watched.mk fw []) h)
      (c.resolution fw h) := by
  simp only [resolution, hr, Watched.linkState_eq, Watched.noting]
  cases hl : (Firmware.linkState fw).answer with
  | error failure => exact mirrors_failure rfl _ _
  | ok link =>
    dsimp only
    cases hm : c.catalog.resolutionOf? link.mode with
    | some r => exact mirrors_ok rfl r _ _
    | none => exact mirrors_own (.unmappedMode hl hm) rfl _ _

/-- The list is taken from the connector or from one call. -/
theorem accepted_mirrors (hr : c.resolveHdmi h .listResolutions = .ok x) (fw : σ)
    (own : Error → Prop) :
    Mirrors own (c.accepted (Watched.mk fw []) h) (c.accepted fw h) := by
  simp only [accepted, hr, askAccepted, Watched.modes_eq, Watched.noting]
  cases x.accepted with
  | some known => exact mirrors_ok (w := Watched.mk fw []) rfl known c []
  | none =>
    dsimp only
    cases (Firmware.modes fw).answer with
    | ok codes => exact mirrors_ok rfl _ _ _
    | error failure => exact mirrors_failure rfl _ _

/-- Reading the identity makes up to two calls, the second only for a blob that decodes. Where the
blob does not, the request fails on its own. -/
theorem readIdentity_mirrors (hr : c.resolveHdmi h .readIdentity = .ok x) (fw : σ)
    (currentYear : Nat) :
    Mirrors (OwnError c fw (.readIdentity currentYear))
      (c.readIdentity (Watched.mk fw []) h currentYear) (c.readIdentity fw h currentYear) := by
  simp only [readIdentity, hr, askAccepted, Watched.readBlob_eq, Watched.modes_eq, Watched.noting]
  cases hb : (Firmware.readBlob fw).answer with
  | error failure => exact mirrors_failure rfl _ _
  | ok bytes =>
    dsimp only
    rw [show (c.remember h none).checksum = c.checksum from rfl]
    cases hd : Edid.decode c.checksum currentYear bytes with
    | error cause => exact mirrors_own (.unreadable hb hd) rfl _ _
    | ok identity =>
      -- the second call is made only now, so its failure is the first one
      dsimp only
      cases (Firmware.modes (Firmware.readBlob fw).state).answer with
      | ok codes => exact mirrors_ok rfl _ _ _
      | error failure => exact mirrors_failure rfl _ _

/-- What a connector of a kind lacks for a request: composite connectors most abilities, and all
connectors the control of content protection. -/
def HandleRequest.lacking? : HandleRequest → Connector.Kind → Option Ability
  | .controlHdcp _, _ => some .controlProtection
  | _, .hdmi => none
  | r, .composite => r.ability?

/-- A connector that is able to do what only HDMI can do is an HDMI connector. -/
theorem HandleRequest.kind_of_lacking?_eq_none {r : HandleRequest} {kind : Connector.Kind}
    {ability : Ability} (hlack : r.lacking? kind = none) (ha : r.ability? = some ability) :
    kind = .hdmi := by
  cases kind with
  | hdmi => rfl
  | composite =>
    have hnone : r.ability? = none := by
      cases r with
      | controlHdcp => rfl
      | _ => exact hlack
    exact absurd (hnone.symm.trans ha) (by simp)

/-- **Who is to blame for a failed request**, if the handle is accepted and the connector lacks
nothing. -/
theorem performOn_mirrors {r : HandleRequest} (hr : c.resolve h = .ok x)
    (hlack : r.lacking? x.kind = none) (fw : σ) :
    Mirrors (OwnError c fw r) (c.performOn (Watched.mk fw []) h r) (c.performOn fw h r) := by
  have hhdmi : ∀ ability, r.ability? = some ability → c.resolveHdmi h ability = .ok x :=
    fun ability ha => resolveHdmi_eq_ok_iff.mpr ⟨hr, r.kind_of_lacking?_eq_none hlack ha⟩
  -- questions about the connector make no call, the others one call or two
  cases r with
  | state | isEnabled | requested =>
    simp only [performOn, state, isEnabled, requested, hr]
    exact mirrors_ok (w := Watched.mk fw []) rfl _ c []
  | isDisplayConnected =>
    simp only [performOn, isDisplayConnected, hhdmi _ rfl]
    exact mirrors_ok (w := Watched.mk fw []) rfl _ c []
  | hdcp =>
    simp only [performOn, hdcp, hhdmi _ rfl]
    exact mirrors_ok (w := Watched.mk fw []) rfl _ c []
  | controlHdcp enabled => exact absurd hlack (by simp [HandleRequest.lacking?])
  | setEnabled enabled => exact (setEnabled_mirrors hr fw enabled _).answering _
  | setResolution name => exact (setResolution_mirrors (hhdmi _ rfl) fw name _).answering _
  | resolution => exact (resolution_mirrors (hhdmi _ rfl) fw).answering _
  | readIdentity currentYear =>
    exact (readIdentity_mirrors (hhdmi _ rfl) fw currentYear).answering _
  | accepted => exact (accepted_mirrors (hhdmi _ rfl) fw _).answering _
  | blob =>
    refine Mirrors.answering ?_ _
    simp only [blob, hhdmi _ rfl]
    exact mirrors_answer fw .readBlob rfl c
  | geometries =>
    refine Mirrors.answering ?_ _
    simp only [geometries, hhdmi _ rfl]
    exact mirrors_answer fw .modes (Watched.failureOf_map _ _) c
  | aspect =>
    refine Mirrors.answering ?_ _
    simp only [aspect, hhdmi _ rfl]
    exact mirrors_answer fw .linkState (Watched.failureOf_map _ _) c

end Controller

end VideoOutput
