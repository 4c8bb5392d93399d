import VideoOutput.Proofs.Access
import VideoOutput.Proofs.Callbacks
import VideoOutput.Proofs.Refusal

/-!
# How long a list is remembered

Who asks what a display accepts, or reads its identification data, is told a list, and from then on
its connector remembers the list (`Assembly.Lists`). `Controller.memory` is what it remembers. It is
forgotten when the controller stops, when a notice is delivered that a display came or went at the
connector, and when the identification data are to be read there (`Controller.Forgets`), by nothing
else, and every time.

So through any run without such a step the list is told again, and the firmware is not asked for it
(`Recalls`). Such a step that does not put another list in its place leaves nothing to recall, and
as long as no list is told the firmware is asked (`AsksAnew`). `told_until_forgotten` is both, for
every run over any firmware.

Nothing is said of whether the list is still true. A display that is exchanged without a notice
makes it false, and it is told all the same; when it is true is the matter of the module on
remembered resolutions. Reading the blob alone is no reason to forget either: only the request for
the identity is, which asks for the list anew.
-/

namespace VideoOutput

open Firmware (Watched)
open Connector (Notice)
open Mode (Resolution)

variable {σ : Type} [Firmware σ]

namespace Controller

variable {c c' : Controller} {fw fw' : σ} {h : Handle} {index : UInt8} {l : List Resolution}
  {x : Connector}

/-! ## What an HDMI connector remembers -/

/-- The HDMI connector with a number. -/
def hdmiAt? (c : Controller) (index : UInt8) : Option Connector :=
  c.connectors.find? fun x => x.kind == .hdmi && x.index == index

/-- What the HDMI connector with a number remembers. -/
def memory (c : Controller) (index : UInt8) : Option (List Resolution) :=
  (c.hdmiAt? index).bind Connector.accepted

/-- The connector at an index is an HDMI connector with this index. -/
theorem of_hdmiAt?_eq_some (hx : c.hdmiAt? index = some x) : x.kind = .hdmi ∧ x.index = index := by
  have hfound := List.find?_some hx
  simpa using hfound

/-- A handle of an HDMI connector is resolved to the connector at its index. -/
theorem hdmiAt?_of_resolve (hr : c.resolve h = .ok x) (hk : x.kind = .hdmi) :
    h.kind = .hdmi ∧ c.hdmiAt? h.index = some x := by
  have hkind : h.kind = .hdmi := (named_of_resolve hr).1.symm.trans hk
  have hfound := (resolve_eq_ok_iff.mp hr).2.2
  unfold Connector.isNamedBy at hfound
  rw [hkind] at hfound
  exact ⟨hkind, hfound⟩

/-- So what is remembered there is what this connector remembers. -/
theorem memory_of_resolve (hr : c.resolve h = .ok x) (hk : x.kind = .hdmi) :
    c.memory h.index = x.accepted := by
  unfold memory
  rw [(hdmiAt?_of_resolve hr hk).2]
  rfl

/-- Where a change moves no connector, the changed ones are found as before. -/
theorem memory_of_map {change : Connector → Connector}
    (hc : c'.connectors = c.connectors.map change) (hplace : ∀ x, place (change x) = place x)
    (index : UInt8) : c'.memory index = (c.hdmiAt? index).bind fun x => (change x).accepted := by
  have hsame : ((fun x : Connector => x.kind == .hdmi && x.index == index) ∘ change) =
      fun x => x.kind == .hdmi && x.index == index := by
    funext x
    have hkind : (change x).kind = x.kind := congrArg Prod.fst (hplace x)
    have hindex : (change x).index = x.index := congrArg Prod.snd (hplace x)
    simp only [Function.comp, hkind, hindex]
  unfold memory hdmiAt?
  rw [hc, List.find?_map, hsame]
  cases c.connectors.find? fun x => x.kind == .hdmi && x.index == index <;> rfl

/-- A change to anything else than what is remembered. -/
theorem memory_modify {change : Connector → Connector} (hplace : ∀ x, place (change x) = place x)
    (haccepted : ∀ x, (change x).accepted = x.accepted) :
    (c.modify h change).memory index = c.memory index := by
  rw [memory_of_map (c := c) rfl]
  · unfold memory
    congr 1
    funext x
    split
    next => exact haccepted x
    next => rfl
  · intro x
    split
    next => exact hplace x
    next => rfl

/-- What is remembered through a handle is remembered where it points, and only there. -/
theorem memory_remember (c : Controller) (h : Handle) (list : Option (List Resolution))
    (index : UInt8) :
    (c.remember h list).memory index =
      (c.hdmiAt? index).bind fun x => if x.isNamedBy h then list else x.accepted := by
  rw [memory_of_map (c := c) rfl]
  · congr 1
    funext x
    split <;> rfl
  · intro x
    split <;> rfl

/-- Who is told a list and looks again finds it. -/
theorem memory_remember_self (hr : c.resolve h = .ok x) (hk : x.kind = .hdmi)
    (list : Option (List Resolution)) : (c.remember h list).memory h.index = list := by
  rw [memory_remember, (hdmiAt?_of_resolve hr hk).2, Option.bind_some,
    if_pos (isNamedBy_iff.mpr (named_of_resolve hr))]

theorem memory_remember_of_ne (hne : h.index ≠ index) (list : Option (List Resolution)) :
    (c.remember h list).memory index = c.memory index := by
  rw [memory_remember]
  unfold memory
  cases hx : c.hdmiAt? index with
  | none => rfl
  | some x =>
    rw [Option.bind_some, Option.bind_some, if_neg]
    intro hnamed
    exact hne ((isNamedBy_iff.mp hnamed).2.symm.trans (of_hdmiAt?_eq_some hx).2)

/-- A dispatch makes a connector forget if it delivers a notice that a display came or went there. -/
theorem memory_dispatch (c : Controller) (index : UInt8) :
    c.dispatch.1.memory index =
      if c.deliverable.any fun n => n.index == index && n.event.isHotplug then none
      else c.memory index := by
  have hconnectors : c.dispatch.1.connectors =
      c.connectors.map fun x => x.applyAll c.deliverable :=
    congrArg Controller.connectors (foldl_applyNotice c.emptyQueue c.deliverable)
  rw [memory_of_map hconnectors fun x => Connector.place_applyAll x _]
  unfold memory
  cases hx : c.hdmiAt? index with
  | none => simp
  | some x =>
    obtain ⟨hk, rfl⟩ := of_hdmiAt?_eq_some hx
    exact Connector.accepted_applyAll hk _

/-- Connectors that were reset remember nothing. -/
theorem memory_of_reset {state : Connector → Connector.State}
    (hc : c'.connectors = c.connectors.map fun x => x.reset (state x)) (index : UInt8) :
    c'.memory index = none := by
  rw [memory_of_map hc fun x => rfl]
  cases c.hdmiAt? index <;> rfl

/-! ## Asking for the list -/

/-- A list that is remembered is told without a call. -/
theorem accepted_of_known (hr : c.resolve h = .ok x) (hk : x.kind = .hdmi)
    (hknown : x.accepted = some l) (fw : σ) : c.accepted fw h = c.reading fw (.ok l) := by
  have hx : c.resolveHdmi h .listResolutions = .ok x := resolveHdmi_eq_ok_iff.mpr ⟨hr, hk⟩
  simp only [accepted, hx, hknown]

/-- Without one the firmware is asked, and a list that it gives is remembered. -/
theorem accepted_of_unknown (hr : c.resolve h = .ok x) (hk : x.kind = .hdmi)
    (hunknown : x.accepted = none) (fw : σ) :
    c.accepted fw h =
      match (Firmware.modes fw).answer with
      | .ok codes =>
        ⟨.ok (c.catalog.accepted codes), c.remember h (some (c.catalog.accepted codes)),
          (Firmware.modes fw).state, (Firmware.modes fw).log⟩
      | .error failure =>
        ⟨.error (.firmware failure), c, (Firmware.modes fw).state, (Firmware.modes fw).log⟩ := by
  have hx : c.resolveHdmi h .listResolutions = .ok x := resolveHdmi_eq_ok_iff.mpr ⟨hr, hk⟩
  simp only [accepted, askAccepted, hx, hunknown]
  cases (Firmware.modes fw).answer <;> rfl

/-- The list that was told is remembered. -/
theorem memory_of_accepted (hl : (c.accepted fw h).result = .ok l) :
    (∃ x, c.resolve h = .ok x) ∧ h.kind = .hdmi ∧
      (c.accepted fw h).controller.memory h.index = some l := by
  cases hx : c.resolveHdmi h .listResolutions with
  | error e =>
    simp only [accepted, hx] at hl
    exact absurd hl (by simp [reading])
  | ok x =>
    obtain ⟨hr, hk⟩ := resolveHdmi_eq_ok_iff.mp hx
    refine ⟨⟨x, hr⟩, (hdmiAt?_of_resolve hr hk).1, ?_⟩
    cases hknown : x.accepted with
    | some known =>
      rw [accepted_of_known hr hk hknown] at hl ⊢
      rw [← Except.ok.inj hl]
      exact (memory_of_resolve hr hk).trans hknown
    | none =>
      rw [accepted_of_unknown hr hk hknown] at hl ⊢
      split at hl
      next =>
        rw [← Except.ok.inj hl]
        exact memory_remember_self hr hk _
      next => exact absurd hl (by simp)

/-- Whoever asks, a connector that remembers a list goes on remembering it. -/
theorem memory_accepted (hknown : c.memory index = some l) (h : Handle) (fw : σ) :
    (c.accepted fw h).controller.memory index = some l := by
  cases hx : c.resolveHdmi h .listResolutions with
  | error e =>
    simp only [accepted, hx]
    exact hknown
  | ok x =>
    obtain ⟨hr, hk⟩ := resolveHdmi_eq_ok_iff.mp hx
    cases haccepted : x.accepted with
    | some known =>
      rw [accepted_of_known hr hk haccepted]
      exact hknown
    | none =>
      -- the connector that is asked remembers nothing, so it is another one
      have hne : h.index ≠ index := by
        intro hindex
        rw [← hindex, memory_of_resolve hr hk, haccepted] at hknown
        exact absurd hknown (by simp)
      rw [accepted_of_unknown hr hk haccepted]
      split
      next => exact (memory_remember_of_ne hne _).trans hknown
      next => exact hknown

/-- A reading that succeeds puts the list that it tells in the place of the one before. -/
theorem memory_of_readIdentity {currentYear : Nat} {identity : Edid.Identity}
    (hi : (c.readIdentity fw h currentYear).result = .ok identity) :
    (∃ x, c.resolve h = .ok x) ∧ h.kind = .hdmi ∧
      (c.readIdentity fw h currentYear).controller.memory h.index = some identity.resolutions := by
  unfold readIdentity at hi ⊢
  split at hi
  next => exact absurd hi (by simp [reading])
  next x hx =>
    obtain ⟨hr, hk⟩ := resolveHdmi_eq_ok_iff.mp hx
    refine ⟨⟨x, hr⟩, (hdmiAt?_of_resolve hr hk).1, ?_⟩
    dsimp only at hi ⊢
    split at hi
    next => exact absurd hi (by simp)
    next =>
      split at hi
      next => exact absurd hi (by simp)
      next =>
        split at hi
        next => exact absurd hi (by simp)
        next resolutions hasked =>
          rw [← Except.ok.inj hi, remember_remember]
          exact memory_remember_self hr hk _

/-! ## Requests and memory -/

/-- By the request the HDMI connector with a number forgets what it remembered. -/
inductive Forgets (c : Controller) (index : UInt8) : Request → Prop where
  /-- The controller is stopped. -/
  | stopped (hact : c.isActive = true) : Forgets c index .stop
  /-- A notice is delivered that a display came or went there. -/
  | hotplug {n : Notice} (hn : n ∈ c.deliverable) (hindex : n.index = index)
      (hevent : n.event.isHotplug = true) : Forgets c index .dispatch
  /-- The identification data are to be read there, which may fail. With a handle that is not
  accepted nothing is read anywhere. -/
  | identity {h : Handle} {x : Connector} {currentYear : Nat} (hr : c.resolve h = .ok x)
      (hk : x.kind = .hdmi) (hindex : h.index = index) :
      Forgets c index (.on h (.readIdentity currentYear))

/-- The request is for the list of the HDMI connector with a number, or to read the identification
data there, and it is answered. -/
inductive TellsList (c : Controller) (index : UInt8) : Request → Except Error Answer → Prop where
  | intro {h : Handle} {x : Connector} {request : HandleRequest} (answer : Answer)
      (hr : c.resolve h = .ok x) (hk : x.kind = .hdmi) (hindex : h.index = index)
      (hrequest : request = .accepted ∨ ∃ currentYear, request = .readIdentity currentYear) :
      TellsList c index (.on h request) (.ok answer)

/-- Reading the identification data makes the connector forget even if a list is told. -/
theorem TellsList.forgets_or {r : Request} {answer : Except Error Answer}
    (ht : c.TellsList index r answer) : (∃ h, r = .on h .accepted) ∨ c.Forgets index r := by
  cases ht with
  | @intro h x request told hr hk hindex hrequest =>
    rcases hrequest with rfl | ⟨currentYear, rfl⟩
    · exact .inl ⟨h, rfl⟩
    · exact .inr (.identity hr hk hindex)

/-- **What a request does to what a connector remembers**: nothing, unless it tells a list there, or
the connector forgets. While the controller is inactive connectors may forget for no reason. -/
theorem Effect.memory_cases {r : Request} {answer : Except Error Answer}
    (he : Effect c fw r answer c' fw') (index : UInt8) :
    c'.memory index = c.memory index ∨
      (c'.memory index = none ∧ (c.isActive = true → c.Forgets index r)) ∨
      c.TellsList index r answer := by
  cases he with
  | refused | asked | startRefused | linkRefused | switchRefused | modeRefused => exact .inl rfl
  -- a start forgets too, but it is no request of an active controller
  | started hidle =>
    refine .inr (.inl ⟨memory_of_reset (c := c) rfl index, ?_⟩)
    intro hact
    exact absurd (hact.symm.trans hidle) (by simp)
  | stopped hact =>
    exact .inr (.inl ⟨memory_of_reset (c := c) rfl index, fun _ => .stopped hact⟩)
  | @registered eventClass => cases eventClass <;> exact .inl rfl
  | switched | modeSet => exact .inl (memory_modify (fun _ => rfl) fun _ => rfl)
  | dispatched =>
    rw [memory_dispatch]
    split
    next hany =>
      obtain ⟨n, hn, hevent⟩ := List.any_eq_true.mp hany
      rw [Bool.and_eq_true, beq_iff_eq] at hevent
      exact .inr (.inl ⟨rfl, fun _ => .hotplug hn hevent.1 hevent.2⟩)
    next => exact .inl rfl
  | @forgotten h x _ _ _ hr hk =>
    by_cases hindex : h.index = index
    · subst hindex
      exact .inr (.inl ⟨memory_remember_self hr hk none, fun _ => .identity hr hk rfl⟩)
    · exact .inl (memory_remember_of_ne hindex none)
  | @remembered h x _ _ told _ hrequest hr hk =>
    by_cases hindex : h.index = index
    · exact .inr (.inr (.intro told hr hk hindex hrequest))
    · exact .inl (memory_remember_of_ne hindex _)

/-! ## Recalling and asking anew -/

/-- Whoever asks through the handle what the display accepts is told the list. The firmware is left
alone, and not even asked. -/
structure Recalls (σ : Type) [Firmware σ] (c : Controller) (h : Handle) (l : List Resolution) :
    Prop where
  told : ∀ fw : σ, c.performOn fw h .accepted = c.reading fw (.ok (.resolutions l))
  uncalled : ∀ fw : σ, (c.performOn (Watched.mk fw []) h .accepted).firmware.notes = []

/-- Whoever asks through the handle what the display accepts is refused, or the firmware is asked:
by one call, and its answer decides. -/
structure AsksAnew (σ : Type) [Firmware σ] (settings : Settings) (c : Controller) (h : Handle) :
    Prop where
  refused : ∀ (fw : σ) e, settings.refusal? c h .accepted = some e →
    c.performOn fw h .accepted = c.reading fw (.error e)
  called : settings.refusal? c h .accepted = none → ∀ fw : σ,
    (c.performOn (Watched.mk fw []) h .accepted).firmware.notes =
      [⟨.modes, Watched.failureOf (Firmware.modes fw).answer⟩]
  told : settings.refusal? c h .accepted = none → ∀ (fw : σ) codes,
    (Firmware.modes fw).answer = .ok codes →
      (c.performOn fw h .accepted).result = .ok (.resolutions (c.catalog.accepted codes))
  failed : settings.refusal? c h .accepted = none → ∀ (fw : σ) failure,
    (Firmware.modes fw).answer = .error failure →
      (c.performOn fw h .accepted).result = .error (.firmware failure)

theorem recalls_of_memory (hr : ∃ x, c.resolve h = .ok x) (hkind : h.kind = .hdmi)
    (hknown : c.memory h.index = some l) : c.Recalls σ h l := by
  obtain ⟨x, hx⟩ := hr
  have hk : x.kind = .hdmi := (named_of_resolve hx).1.trans hkind
  rw [memory_of_resolve hx hk] at hknown
  refine ⟨fun fw => ?_, fun fw => ?_⟩
  · show (c.accepted fw h).answering .resolutions = _
    rw [accepted_of_known hx hk hknown]
    rfl
  · show (c.accepted (Watched.mk fw []) h).firmware.notes = []
    rw [accepted_of_known hx hk hknown]
    rfl

theorem asksAnew_of_memory {settings : Settings}
    (hplaces : c.connectors.map place = settings.places) (hnone : c.memory h.index = none) :
    c.AsksAnew σ settings h := by
  -- a request that is not refused reaches a connector, and that one remembers nothing
  have hunknown : settings.refusal? c h .accepted = none →
      ∃ x, c.resolve h = .ok x ∧ x.kind = .hdmi ∧ x.accepted = none := by
    intro hgranted
    obtain ⟨x, hx, hlack⟩ := exists_resolve_of_refusal?_eq_none hplaces hgranted
    have hk := HandleRequest.kind_of_lacking?_eq_none hlack rfl
    exact ⟨x, hx, hk, (memory_of_resolve hx hk).symm.trans hnone⟩
  refine { refused := ?refused, called := ?called, told := ?told, failed := ?failed }
  case refused =>
    intro fw e he
    exact performOn_of_refusal? hplaces he fw
  case called =>
    intro hgranted fw
    obtain ⟨x, hx, hk, hnew⟩ := hunknown hgranted
    show (c.accepted (Watched.mk fw []) h).firmware.notes = _
    rw [accepted_of_unknown hx hk hnew, Watched.modes_eq]
    unfold Watched.noting
    split <;> rfl
  case told =>
    intro hgranted fw codes hcodes
    obtain ⟨x, hx, hk, hnew⟩ := hunknown hgranted
    show ((c.accepted fw h).answering .resolutions).result = _
    rw [accepted_of_unknown hx hk hnew, hcodes]
    rfl
  case failed =>
    intro hgranted fw failure hfailure
    obtain ⟨x, hx, hk, hnew⟩ := hunknown hgranted
    show ((c.accepted fw h).answering .resolutions).result = _
    rw [accepted_of_unknown hx hk hnew, hfailure]
    rfl

end Controller

namespace Assembly

variable {a : Assembly σ} {s : Step σ} {steps : List (Step σ)} {h : Handle} {index : UInt8}
  {l : List Resolution}

/-! ## What a step does -/

/-- In the step somebody asks through the handle and is told the list, by itself or along with who
the display is. -/
inductive Lists (a : Assembly σ) (h : Handle) : Step σ → List Resolution → Prop where
  | accepted {l : List Resolution}
      (hl : (a.controller.performOn a.firmware h .accepted).result = .ok (.resolutions l)) :
      Lists a h (.request (.on h .accepted)) l
  | identity {currentYear : Nat} {identity : Edid.Identity}
      (hi : (a.controller.performOn a.firmware h (.readIdentity currentYear)).result =
        .ok (.identity identity)) :
      Lists a h (.request (.on h (.readIdentity currentYear))) identity.resolutions

/-- In the step a list is told of the HDMI connector with a number. -/
def ListsAt (a : Assembly σ) (index : UInt8) (s : Step σ) : Prop :=
  ∃ h l, h.kind = .hdmi ∧ h.index = index ∧ a.Lists h s l

/-- In the step the HDMI connector with a number forgets what it remembered. -/
def Forgets (a : Assembly σ) (index : UInt8) : Step σ → Prop
  | .request r => a.controller.Forgets index r
  | _ => False

/-- A request that tells a list is a step that lists. -/
theorem listsAt_of_tellsList {r : Controller.Request}
    (ht : a.controller.TellsList index r (a.controller.perform a.firmware r).result) :
    a.ListsAt index (.request r) := by
  generalize hanswer : (a.controller.perform a.firmware r).result = answer at ht
  cases ht with
  | @intro h x request told hr hk hindex hrequest =>
    have hkind := (Controller.hdmiAt?_of_resolve hr hk).1
    rcases hrequest with rfl | ⟨currentYear, rfl⟩
    · obtain ⟨l, -, rfl⟩ := Controller.exists_of_map_eq_ok hanswer
      exact ⟨h, l, hkind, hindex, .accepted hanswer⟩
    · obtain ⟨identity, -, rfl⟩ := Controller.exists_of_map_eq_ok hanswer
      exact ⟨h, identity.resolutions, hkind, hindex, .identity hanswer⟩

/-- A handle that is accepted stays so until the controller is stopped. -/
theorem exists_resolve_step (hr : ∃ x, a.controller.resolve h = .ok x) (hs : s ≠ .request .stop) :
    ∃ x, (a.step s).controller.resolve h = .ok x := by
  obtain ⟨x, hx⟩ := hr
  have hact := Controller.isActive_of_resolve hx
  have hgen := (Controller.resolve_eq_ok_iff.mp hx).2.1
  have hmem := (Controller.exists_resolve_iff hact hgen).mp ⟨x, hx⟩
  have hgen' : h.generation = (a.step s).controller.generation := by
    rw [generation_step, begins_of_isActive hact, hgen]
    simp
  refine (Controller.exists_resolve_iff (isActive_step hact hs) hgen').mpr ?_
  rw [(sameSetup_step a s).places]
  exact hmem

/-! ## Remembering -/

/-- The handle is accepted, and its connector remembers the list. -/
structure Remembers (a : Assembly σ) (h : Handle) (l : List Resolution) : Prop where
  accepted : ∃ x, a.controller.resolve h = .ok x
  kind : h.kind = .hdmi
  memory : a.controller.memory h.index = some l

/-- The list that was told is remembered. -/
theorem Lists.remembers (hl : a.Lists h s l) : (a.step s).Remembers h l := by
  cases hl with
  | accepted hl =>
    obtain ⟨l, hresult, hwrap⟩ := Controller.exists_of_map_eq_ok hl
    obtain rfl := Controller.Answer.resolutions.inj hwrap
    obtain ⟨hr, hkind, hmemory⟩ := Controller.memory_of_accepted hresult
    exact ⟨exists_resolve_step hr (by simp), hkind, hmemory⟩
  | identity hi =>
    obtain ⟨identity, hresult, hwrap⟩ := Controller.exists_of_map_eq_ok hi
    obtain rfl := Controller.Answer.identity.inj hwrap
    obtain ⟨hr, hkind, hmemory⟩ := Controller.memory_of_readIdentity hresult
    exact ⟨exists_resolve_step hr (by simp), hkind, hmemory⟩

/-- **One step**: a list that is remembered stays so in every step in which it is not forgotten. -/
theorem Remembers.step (hm : a.Remembers h l) (hs : ¬ a.Forgets h.index s) :
    (a.step s).Remembers h l := by
  obtain ⟨x, hx⟩ := hm.accepted
  have hact := Controller.isActive_of_resolve hx
  have hstop : s ≠ .request .stop := by
    intro hstop
    subst hstop
    exact hs (.stopped hact)
  refine ⟨exists_resolve_step hm.accepted hstop, hm.kind, ?_⟩
  cases s with
  | push | drain | firmware => exact hm.memory
  | request r =>
    have he := Controller.perform_isEffect a.controller a.firmware r
    rcases he.memory_cases h.index with hsame | ⟨-, hforgets⟩ | htells
    · exact hsame.trans hm.memory
    · exact absurd (hforgets hact) hs
    · -- the list that is told is the one that is remembered, unless the data are read anew
      rcases htells.forgets_or with ⟨h', rfl⟩ | hforgets
      · exact Controller.memory_accepted hm.memory h' a.firmware
      · exact absurd hforgets hs

/-! ## Forgetting -/

/-- **The other way round**: what is forgotten in a step is gone, unless the step tells another
list. -/
theorem Forgets.memory (hf : a.Forgets index s) (hs : ¬ a.ListsAt index s) :
    (a.step s).controller.memory index = none := by
  cases s with
  | push | drain | firmware => exact hf.elim
  | request r =>
    cases hf with
    | stopped hact =>
      rw [step_stop hact]
      exact Controller.memory_of_reset (c := a.controller) rfl index
    | hotplug hn hindex hevent =>
      show a.controller.dispatch.1.memory index = none
      rw [Controller.memory_dispatch, if_pos]
      exact List.any_eq_true.mpr ⟨_, hn, by simp [hindex, hevent]⟩
    | @identity h x currentYear hr hk hindex =>
      subst hindex
      cases hread : (a.controller.readIdentity a.firmware h currentYear).result with
      | ok identity =>
        have ha : (a.controller.performOn a.firmware h (.readIdentity currentYear)).result =
            .ok (.identity identity) := congrArg (Except.map _) hread
        have hkind := (Controller.hdmiAt?_of_resolve hr hk).1
        exact absurd ⟨h, _, hkind, rfl, .identity ha⟩ hs
      | error e =>
        have hforgot := Controller.readIdentity_of_error
          (Controller.resolveHdmi_eq_ok_iff.mpr ⟨hr, hk⟩) hread
        show (a.controller.readIdentity a.firmware h currentYear).controller.memory h.index = none
        rw [hforgot]
        exact Controller.memory_remember_self hr hk none

/-- Nothing is remembered until a list is told. -/
theorem memory_step_eq_none (hnone : a.controller.memory index = none)
    (hs : ¬ a.ListsAt index s) : (a.step s).controller.memory index = none := by
  cases s with
  | push | drain | firmware => exact hnone
  | request r =>
    have he := Controller.perform_isEffect a.controller a.firmware r
    rcases he.memory_cases index with hsame | ⟨hgone, -⟩ | htells
    · exact hsame.trans hnone
    · exact hgone
    · exact absurd (listsAt_of_tellsList htells) hs

/-! ## Runs -/

/-- No step of the run has the property in the state in which it is taken. -/
def Never (property : Assembly σ → Step σ → Prop) : Assembly σ → List (Step σ) → Prop
  | _, [] => True
  | a, s :: steps => ¬ property a s ∧ Never property (a.step s) steps

/-- What every step keeps that does not have the property holds after a run without such steps. -/
theorem Never.run {property : Assembly σ → Step σ → Prop} {P : Assembly σ → Prop}
    (hn : Never property a steps)
    (hstep : ∀ (a : Assembly σ) (s : Step σ), P a → ¬ property a s → P (a.step s)) (ha : P a) :
    P (a.run steps) := by
  induction steps generalizing a with
  | nil => exact ha
  | cons s steps ih => exact ih hn.2 (hstep a s ha hn.1)

/-- **What was told is told until it is forgotten.** For valid settings, over any firmware and in
every state that a controller can reach: once somebody was told a list through a handle, the list is
told to whoever asks through the handle and no call is made for it, whatever happens in between, as
long as the connector does not forget. And once the connector has forgotten, without another list in
its place, whoever asks is refused or the firmware is asked anew, whatever happens in between, as
long as no list is told of the connector. -/
theorem told_until_forgotten {settings : Settings} (id : Connector.QueueId) (fw : σ)
    (hvalid : settings.check = .ok settings) :
    ∃ a, fresh id settings fw = .ok a ∧
      (∀ steps s later h l, (a.run steps).Lists h s l →
        Never (fun a s => a.Forgets h.index s) ((a.run steps).step s) later →
          (a.run (steps ++ s :: later)).controller.Recalls σ h l) ∧
      ∀ steps s later index, (a.run steps).Forgets index s →
        Never (fun a s => a.ListsAt index s) (a.run steps) (s :: later) →
          ∀ h : Handle, h.index = index →
            (a.run (steps ++ s :: later)).controller.AsksAnew σ settings h := by
  obtain ⟨catalog, hfresh⟩ := fresh_of_check hvalid id fw
  refine ⟨_, hfresh, ?_, ?_⟩
  · intro steps s later h l hl hkept
    have hm := hkept.run (P := fun a => a.Remembers h l) (fun _ _ => Remembers.step) hl.remembers
    rw [run_append, run_cons]
    exact Controller.recalls_of_memory hm.accepted hm.kind hm.memory
  · intro steps s later index hf hsilent h hindex
    have hnone := hsilent.2.run (P := fun a => a.controller.memory index = none)
      (fun _ _ => memory_step_eq_none) (hf.memory hsilent.1)
    refine Controller.asksAnew_of_memory (places_run _) ?_
    rw [run_append, run_cons, hindex]
    exact hnone

/-- A list is told again while the notice of an unplugged display waits, although the firmware does
not answer any more. After the dispatch the firmware is asked. -/
theorem told_again_and_asked_anew :
    ∃ a, fresh 0 {} (⟨.fresh [] [4, 16] true, {}⟩ : Display) = .ok a ∧
      ∃ (h : Handle) (l : List Resolution) (steps later : List (Step Display)), l ≠ [] ∧
        (a.run steps).Lists h (.request (.on h .accepted)) l ∧
        (a.run (steps ++ .request (.on h .accepted) :: later)).controller.Recalls Display h l ∧
        (a.run (steps ++ .request (.on h .accepted) :: later)).Forgets h.index
          (.request .dispatch) ∧
        (a.run (steps ++ .request (.on h .accepted) :: later ++
          [.request .dispatch])).controller.AsksAnew Display {} h := by
  obtain ⟨a, hfresh, hkept, hforgotten⟩ := told_until_forgotten 0
    (⟨.fresh [] [4, 16] true, {}⟩ : Display) (rfl : Settings.check {} = .ok {})
  obtain rfl := Except.ok.inj hfresh
  refine ⟨_, hfresh, ⟨.hdmi, 0, 1⟩, _, [.request .start],
    [.push ⟨0, .disconnected⟩, .firmware ⟨.fresh [] [] true, { modes := some "no answer" }⟩],
    ?_, .accepted rfl, hkept _ _ _ _ _ (.accepted rfl) ⟨?_, ?_, trivial⟩, ?_,
    hforgotten _ (.request .dispatch) [] 0 ?_ ⟨?_, trivial⟩ _ rfl⟩
  · exact List.cons_ne_nil _ _
  · intro hf
    cases hf
  · intro hf
    cases hf
  · exact .hotplug (n := ⟨0, .disconnected⟩) (by decide) rfl rfl
  · exact .hotplug (n := ⟨0, .disconnected⟩) (by decide) rfl rfl
  · intro hl
    obtain ⟨h, l, -, -, hl⟩ := hl
    cases hl

end Assembly

end VideoOutput
