import VideoOutput.Proofs.Consistency
import VideoOutput.Proofs.Cycle

/-!
# The enabled flag and the output

Whether a connector is enabled is kept twice: as a flag of the connector, and in the firmware as the
state of the output of its kind. Switching a connector tells the firmware first and then sets the
flag. A start sets the flag alone: an output that was switched off in one cycle stays off in the
next, while its connector is enabled again.

`isEnabled_eq_output_iff` is the exact rule for a controller with at most one connector of each
kind: the two agree exactly if the output was on when the cycle began, or if a connector of the kind
was switched successfully since.

The condition of one connector for each kind is needed, because there is one output for a kind and
one flag for a connector: of two connectors the second one can be switched off, and the flag of the
first does not know. Over a cycle the proof carries both sides along: `FlagIs` says what the flag
is, `output` what the output is, and a step either leaves both or is a switch of the kind and sets
both. Only the start sets one of them, so the rule is decided by what the output was there.
-/

namespace VideoOutput

namespace Controller

/-- All connectors of a kind have this flag. -/
def FlagIs (kind : Connector.Kind) (flag : Bool) (c : Controller) : Prop :=
  ∀ x ∈ c.connectors, x.kind = kind → x.enabled = flag

/-- Every connector is the first of its kind, so a kind has at most one. -/
def IsSingle (c : Controller) : Prop :=
  ∀ x ∈ c.connectors, x.index = 0

variable {c : Controller} {kind : Connector.Kind} {flag : Bool}

/-- That there is at most one connector of each kind is a matter of the places. -/
theorem isSingle_iff_places : c.IsSingle ↔ ∀ p ∈ c.connectors.map place, p.2 = 0 := by
  unfold IsSingle
  rw [List.forall_mem_map]
  rfl

theorem SameSetup.isSingle {c' : Controller} (hs : SameSetup c c') (h : c.IsSingle) :
    c'.IsSingle := by
  rw [isSingle_iff_places] at h ⊢
  rw [hs.places]
  exact h

/-- A change that leaves kind and flag alone leaves the flags alone. -/
theorem FlagIs.modify (h : c.FlagIs kind flag) (name : Handle) {change : Connector → Connector}
    (hkind : ∀ x, (change x).kind = x.kind) (hflag : ∀ x, (change x).enabled = x.enabled) :
    (c.modify name change).FlagIs kind flag := by
  intro y hy hk
  obtain ⟨x, hx, rfl⟩ := List.mem_map.mp hy
  split at hk
  next hn =>
    rw [if_pos hn, hflag]
    exact h x hx (hkind x ▸ hk)
  next hn =>
    rw [if_neg hn]
    exact h x hx hk

/-- Switching a connector of another kind leaves the flags alone. -/
theorem FlagIs.switch_other (h : c.FlagIs kind flag) {name : Handle} (hne : name.kind ≠ kind)
    (enabled : Bool) :
    (c.modify name fun x => { x with enabled }).FlagIs kind flag := by
  intro y hy hk
  obtain ⟨x, hx, rfl⟩ := List.mem_map.mp hy
  split at hk
  next hn => exact absurd ((isNamedBy_iff.mp hn).1.symm.trans hk) hne
  next hn =>
    rw [if_neg hn]
    exact h x hx hk

/-- Switching the only connector of a kind sets all flags of the kind. -/
theorem flagIs_switch (hs : c.IsSingle) {name : Handle} {x : Connector}
    (hr : c.resolve name = .ok x) (enabled : Bool) :
    (c.modify name fun x => { x with enabled }).FlagIs name.kind enabled := by
  intro y hy hk
  obtain ⟨z, hz, rfl⟩ := List.mem_map.mp hy
  -- every connector of the kind is the one that the handle names
  have hzero : name.index = 0 := by
    rw [← (named_of_resolve hr).2]
    exact hs x (mem_of_resolve hr)
  split at hk
  next hn => rw [if_pos hn]
  next hn => exact absurd (isNamedBy_iff.mpr ⟨hk, (hs z hz).trans hzero.symm⟩) hn

theorem enabled_apply (x : Connector) (event : Connector.Event) :
    (x.apply event).enabled = x.enabled := by
  cases event <;> rfl

theorem kind_apply (x : Connector) (event : Connector.Event) :
    (x.apply event).kind = x.kind := by
  cases event <;> rfl

theorem FlagIs.dispatch (h : c.FlagIs kind flag) : c.dispatch.1.FlagIs kind flag :=
  dispatch_induction (P := fun c' => c'.FlagIs kind flag) h fun _ notice _ hc =>
    hc.modify _ (fun x => kind_apply x notice.event) fun x => enabled_apply x notice.event

/-- A start enables every connector. -/
theorem flagIs_activated (c : Controller) (kind : Connector.Kind) (isConnected : Bool) :
    (c.activated isConnected).FlagIs kind true := by
  intro y hy _
  obtain ⟨x, -, rfl⟩ := List.mem_map.mp hy
  show (startState isConnected x != .uninitialized) = true
  exact bne_iff_ne.mpr (startState_ne isConnected x)

/-! ## Requests -/

/-- The request switched a connector of the kind to `enabled`, and was carried out. -/
def IsSwitch (kind : Connector.Kind) (enabled : Bool) (r : Request)
    (answer : Except Error Answer) : Prop :=
  ∃ name, r = .on name (.setEnabled enabled) ∧ name.kind = kind ∧ answer = .ok .done

/-- A request that does not switch is no switch, whatever its answer. -/
theorem not_isSwitch {r : Request} {answer : Except Error Answer}
    (hr : ∀ name enabled, r ≠ .on name (.setEnabled enabled)) :
    ¬ ∃ enabled, IsSwitch kind enabled r answer :=
  fun ⟨enabled, name, heq, _⟩ => hr name enabled heq

theorem not_isSwitch_of_error {r : Request} {e : Error} :
    ¬ ∃ enabled, IsSwitch kind enabled r (.error e) :=
  fun ⟨_, _, _, _, hok⟩ => absurd hok (by simp)

/-- A switched output is as it was told to be. -/
theorem isEnabled_switch_self (sim : Firmware.Simulator) (kind : Connector.Kind) (enabled : Bool) :
    (sim.switch enabled kind).isEnabled kind = enabled := by
  cases kind <;> rfl

/-- The output of the other kind stays as it was. -/
theorem isEnabled_switch_ne (sim : Firmware.Simulator) {kind kind' : Connector.Kind}
    (hne : kind' ≠ kind) (enabled : Bool) :
    (sim.switch enabled kind').isEnabled kind = sim.isEnabled kind := by
  cases kind <;> cases kind' <;> first | rfl | exact absurd rfl hne

/-- In a cycle a request either switches a connector of the kind, and then flag and output are what
it was switched to, or it changes neither. -/
theorem Effect.flagIs_or_switch {c' : Controller} {display display' : Display} {r : Request}
    {answer : Except Error Answer} (he : Effect c display r answer c' display')
    (hact : c.isActive = true) (hstop : r ≠ .stop) (hs : c.IsSingle) (hflag : c.FlagIs kind flag) :
    (∃ enabled, IsSwitch kind enabled r answer ∧ c'.FlagIs kind enabled ∧
        display'.inner.isEnabled kind = enabled) ∨
      (¬ (∃ enabled, IsSwitch kind enabled r answer)) ∧ c'.FlagIs kind flag ∧
        display'.inner.isEnabled kind = display.inner.isEnabled kind := by
  cases he with
  | refused => exact .inr ⟨not_isSwitch_of_error, hflag, rfl⟩
  | asked _ hq ha =>
    rw [Display.eq_of_asked ha]
    refine .inr ⟨not_isSwitch fun name enabled hr => ?_, hflag, rfl⟩
    rw [hr] at hq
    exact absurd hq (by simp [Request.isQuestion, HandleRequest.isQuestion])
  | startRefused hidle | linkRefused hidle | started hidle =>
    exact absurd (hact.symm.trans hidle) (by simp)
  | stopped => exact absurd rfl hstop
  | switchRefused _ ha =>
    rw [Display.setEnabled_of_error ha]
    exact .inr ⟨not_isSwitch_of_error, hflag, rfl⟩
  | @switched name x enabled hr ha =>
    -- the one place where flag and output change, and they change together
    rw [Display.setEnabled_of_ok ha]
    by_cases hk : name.kind = kind
    · subst hk
      exact .inl ⟨enabled, ⟨name, rfl, rfl, rfl⟩, flagIs_switch hs hr enabled,
        isEnabled_switch_self display.inner name.kind enabled⟩
    · refine .inr ⟨?_, hflag.switch_other hk enabled,
        isEnabled_switch_ne display.inner hk enabled⟩
      rintro ⟨_, name', hr', hk', _⟩
      injection hr' with hname _
      exact hk (hname ▸ hk')
  | modeRefused _ _ ha =>
    rw [Display.setMode_of_error ha]
    exact .inr ⟨not_isSwitch_of_error, hflag, rfl⟩
  | modeSet _ _ ha =>
    rw [Display.setMode_of_ok ha]
    refine .inr ⟨not_isSwitch (by simp), hflag.modify _ (fun _ => rfl) fun _ => rfl, ?_⟩
    cases kind <;> rfl
  | forgotten _ _ _ ha =>
    rw [Display.eq_of_asked ha]
    exact .inr ⟨not_isSwitch_of_error, hflag.modify _ (fun _ => rfl) fun _ => rfl, rfl⟩
  | remembered _ _ hreq _ _ ha =>
    rw [Display.eq_of_asked ha]
    refine .inr ⟨not_isSwitch fun name enabled hr => ?_,
      hflag.modify _ (fun _ => rfl) fun _ => rfl, rfl⟩
    rcases hreq with rfl | ⟨_, rfl⟩
    · exact absurd hr (by simp)
    · exact absurd hr (by simp)
  | @registered eventClass =>
    refine .inr ⟨not_isSwitch (by simp), ?_, rfl⟩
    cases eventClass <;> exact hflag
  | dispatched => exact .inr ⟨not_isSwitch (by simp), hflag.dispatch, rfl⟩

/-- A start that succeeds enables every connector and tells no output. -/
theorem Effect.flagIs_of_start {c' : Controller} {display display' : Display}
    {answer : Except Error Answer} (he : Effect c display .start answer c' display')
    (hidle : c.isActive = false) (hact : c'.isActive = true) (kind : Connector.Kind) :
    c'.FlagIs kind true ∧ display'.inner.isEnabled kind = display.inner.isEnabled kind := by
  cases he with
  | refused | startRefused | linkRefused => exact absurd (hidle.symm.trans hact) (by simp)
  | asked _ hq => exact absurd hq (by simp [Request.isQuestion])
  | started _ hs _ =>
    rw [Display.askedAtStart_state hs]
    exact ⟨flagIs_activated _ kind _, by cases kind <;> rfl⟩

/-- With one connector of each kind, the flags of its kind are what a handle reads. -/
theorem isEnabled_eq_of_flagIs {h : Handle} {x : Connector} (hr : c.resolve h = .ok x)
    (hflag : c.FlagIs h.kind flag) : c.isEnabled h = .ok flag := by
  unfold isEnabled
  rw [hr, ← hflag x (mem_of_resolve hr) (named_of_resolve hr).1]
  rfl

/-- At most one connector of each kind is asked for. -/
theorem isSingle_initial {settings : Settings} (hh : settings.hdmiCount ≤ 1)
    (hc : settings.compositeCount ≤ 1) (id : Connector.QueueId) (catalog : Mode.Catalog) :
    (initial id settings catalog).IsSingle := by
  have hzero : ∀ {kind : Connector.Kind} {count : UInt8}, count ≤ 1 →
      ∀ x ∈ connectorsOf kind count, x.index = 0 := by
    intro kind count hle x hx
    obtain ⟨i, hi, rfl⟩ := List.mem_map.mp hx
    have hi' : i < count.toNat := List.mem_range.mp hi
    have hle' : count.toNat ≤ 1 := hle
    have : i = 0 := by omega
    subst this
    rfl
  intro x hx
  rcases List.mem_append.mp hx with hx | hx
  · exact hzero hh x hx
  · exact hzero hc x hx

end Controller

/-! ## Runs -/

namespace Rig

open Controller (FlagIs IsSingle IsSwitch)

variable {rig : Rig} {kind : Connector.Kind} {flag : Bool}

/-- The state of the output of a kind, as the firmware was told it last. -/
def output (rig : Rig) (kind : Connector.Kind) : Bool :=
  rig.display.inner.isEnabled kind

/-- The step switches a connector of the kind to `enabled`, and is carried out. -/
def Switches (rig : Rig) (kind : Connector.Kind) (enabled : Bool) : Step → Prop
  | .request r => IsSwitch kind enabled r (rig.controller.perform rig.display r).result
  | _ => False

/-- Some step of a run switches a connector of the kind, and is carried out. -/
def SwitchesIn (kind : Connector.Kind) : Rig → List Step → Prop
  | _, [] => False
  | rig, s :: steps => (∃ enabled, rig.Switches kind enabled s) ∨ SwitchesIn kind (rig.step s) steps

theorem flagIs_announce (h : rig.controller.FlagIs kind flag) (index : UInt8)
    (event : Connector.Event) :
    (rig.announce index event).controller.FlagIs kind flag ∧
      (rig.announce index event).output kind = rig.output kind :=
  announce_induction
    (P := fun r => r.controller.FlagIs kind flag ∧ r.output kind = rig.output kind) ⟨h, rfl⟩
    (fun _ => ⟨h, rfl⟩) index event

/-- A step of a cycle either switches a connector of the kind, and then flag and output are what it
was switched to, or it changes neither. -/
theorem flagIs_or_switches_step {s : Step} (hact : rig.controller.isActive = true)
    (hstop : s ≠ .request .stop) (hs : rig.controller.IsSingle)
    (hflag : rig.controller.FlagIs kind flag) :
    (∃ enabled, rig.Switches kind enabled s ∧ (rig.step s).controller.FlagIs kind enabled ∧
        (rig.step s).output kind = enabled) ∨
      (¬ ∃ enabled, rig.Switches kind enabled s) ∧ (rig.step s).controller.FlagIs kind flag ∧
        (rig.step s).output kind = rig.output kind := by
  have hnone : (∀ enabled, ¬ rig.Switches kind enabled s) → ¬ ∃ enabled, rig.Switches kind enabled s :=
    fun h he => he.elim h
  cases s with
  | request r =>
    exact (Controller.perform_isEffect rig.controller rig.display r).flagIs_or_switch hact
      (fun hr => hstop (congrArg Step.request hr)) hs hflag
  | hotplug isConnected =>
    have hplug : (rig.changeSimulator fun sim => sim.plugged isConnected).controller.FlagIs kind flag :=
      hflag
    obtain ⟨hf, ho⟩ := flagIs_announce hplug 0 (Firmware.Simulator.hotplugEvent isConnected)
    refine .inr ⟨hnone fun _ => id, hf, ho.trans ?_⟩
    cases kind <;> rfl
  | reportHdcp status => exact .inr ⟨hnone fun _ => id, flagIs_announce hflag 0 (.hdcp status)⟩
  | push | drain | setFaults => exact .inr ⟨hnone fun _ => id, hflag, rfl⟩
  | replaceDisplay | setFailing =>
    refine .inr ⟨hnone fun _ => id, hflag, ?_⟩
    cases kind <;> rfl

/-- In the rest of a cycle flag and output are equal once a connector of the kind was switched, and
unchanged before. -/
theorem flagIs_run {steps : List Step} (hact : rig.controller.isActive = true)
    (hstop : Step.request .stop ∉ steps) (hs : rig.controller.IsSingle)
    (hflag : rig.controller.FlagIs kind flag) :
    (SwitchesIn kind rig steps → ∃ enabled, (rig.run steps).controller.FlagIs kind enabled ∧
        (rig.run steps).output kind = enabled) ∧
      (¬ SwitchesIn kind rig steps → (rig.run steps).controller.FlagIs kind flag ∧
        (rig.run steps).output kind = rig.output kind) := by
  induction steps generalizing rig flag with
  | nil => exact ⟨fun h => absurd h id, fun _ => ⟨hflag, rfl⟩⟩
  | cons s steps ih =>
    rw [List.mem_cons, not_or] at hstop
    have hne : s ≠ .request .stop := fun he => hstop.1 he.symm
    have hact' := isActive_step hact hne
    have hs' : (rig.step s).controller.IsSingle := (sameSetup_step rig s).isSingle hs
    rcases flagIs_or_switches_step hact hne hs hflag with ⟨enabled, hsw, hf, ho⟩ | ⟨hno, hf, ho⟩
    · -- the last switch counts, so the run after this one decides
      obtain ⟨hyes', hno'⟩ := ih hact' hstop.2 hs' hf
      refine ⟨fun _ => ?_, fun h => absurd (.inl ⟨enabled, hsw⟩) h⟩
      by_cases hlater : SwitchesIn kind (rig.step s) steps
      · exact hyes' hlater
      · exact ⟨enabled, (hno' hlater).1, (hno' hlater).2.trans ho⟩
    · obtain ⟨hyes', hno'⟩ := ih hact' hstop.2 hs' hf
      refine ⟨fun h => hyes' (h.resolve_left hno), fun h => ?_⟩
      obtain ⟨hf', ho'⟩ := hno' fun hlater => h (.inr hlater)
      exact ⟨hf', ho'.trans ho⟩

/-- The same for a whole cycle, from the rig that is about to be started. -/
theorem isEnabled_eq_output_iff_of_start {steps : List Step}
    (hidle : rig.controller.isActive = false)
    (hact : (rig.step (.request .start)).controller.isActive = true)
    (hstop : Step.request .stop ∉ steps) (hs : rig.controller.IsSingle) {h : Handle}
    {x : Connector} (hr : ((rig.step (.request .start)).run steps).controller.resolve h = .ok x) :
    ((rig.step (.request .start)).run steps).controller.isEnabled h =
        .ok (((rig.step (.request .start)).run steps).output h.kind) ↔
      rig.output h.kind = true ∨ SwitchesIn h.kind (rig.step (.request .start)) steps := by
  obtain ⟨hflag, hout⟩ := (Controller.perform_isEffect rig.controller rig.display
    .start).flagIs_of_start hidle hact h.kind
  -- the start makes the flag true whatever the output is, and then the rest of the cycle counts
  have hsingle : (rig.step (.request .start)).controller.IsSingle :=
    (sameSetup_step rig (.request .start)).isSingle hs
  obtain ⟨hyes, hno⟩ := flagIs_run hact hstop hsingle hflag
  by_cases hsw : SwitchesIn h.kind (rig.step (.request .start)) steps
  · obtain ⟨enabled, hf, ho⟩ := hyes hsw
    rw [Controller.isEnabled_eq_of_flagIs hr hf, ho]
    exact ⟨fun _ => .inr hsw, fun _ => rfl⟩
  · obtain ⟨hf, ho⟩ := hno hsw
    have hkept : ((rig.step (.request .start)).run steps).output h.kind = rig.output h.kind :=
      ho.trans hout
    rw [Controller.isEnabled_eq_of_flagIs hr hf, hkept]
    refine ⟨fun he => .inl (Except.ok.inj he).symm, fun he => ?_⟩
    rw [he.resolve_right hsw]

/-- **When the enabled flag tells the state of the output**, with at most one connector of each
kind. A run that ends active ends in some cycle. In it a connector is enabled exactly if its output
is on, provided that the output was on when the cycle began or a connector of the kind was switched
in the cycle; otherwise the two disagree. -/
theorem isEnabled_eq_output_iff {settings : Settings} (id : Connector.QueueId) (blob : List UInt8)
    (modes : List Mode.ModeCode) (isConnected : Bool) (hvalid : settings.check = .ok settings)
    (hhdmi : settings.hdmiCount ≤ 1) (hcomposite : settings.compositeCount ≤ 1) :
    ∃ rig, fresh id settings (.fresh blob modes isConnected) = .ok rig ∧
      ∀ steps, (rig.run steps).controller.isActive = true →
        ∃ before after, steps = before ++ .request .start :: after ∧
          (rig.run before).controller.isActive = false ∧
          ((rig.run before).step (.request .start)).controller.isActive = true ∧
          Step.request .stop ∉ after ∧
          ∀ h x, (rig.run steps).controller.resolve h = .ok x →
            ((rig.run steps).controller.isEnabled h = .ok ((rig.run steps).output h.kind) ↔
              (rig.run before).output h.kind = true ∨
                SwitchesIn h.kind ((rig.run before).step (.request .start)) after) := by
  obtain ⟨catalog, -, hfresh⟩ := fresh_of_check hvalid id (.fresh blob modes isConnected)
  refine ⟨_, hfresh, fun steps hend => ?_⟩
  obtain ⟨before, after, rfl, hidle, hact, hstop⟩ := exists_start_of_isActive rfl hend
  refine ⟨before, after, rfl, hidle, hact, hstop, fun h x hr => ?_⟩
  have hsingle := (sameSetup_run ⟨.initial id settings catalog,
    ⟨.fresh blob modes isConnected, {}⟩⟩ before).isSingle
    (Controller.isSingle_initial hhdmi hcomposite id catalog)
  rw [run_append, run_cons] at hr ⊢
  exact isEnabled_eq_output_iff_of_start hidle hact hstop hsingle hr

/-- An output that is switched off in one cycle stays off in the next, where its connector is
enabled. -/
theorem isEnabled_and_output_off_after_restart :
    ∃ rig, fresh 0 {} (.fresh [] [16, 4] true) = .ok rig ∧
      ∃ steps, (rig.run steps).controller.isEnabled ⟨.hdmi, 0, 2⟩ = .ok true ∧
        (rig.run steps).output .hdmi = false ∧
        ∃ before after, steps = before ++ .request .start :: after ∧
          (rig.run before).controller.isActive = false ∧
          (rig.run before).output .hdmi = false ∧
          ¬ SwitchesIn .hdmi ((rig.run before).step (.request .start)) after := by
  obtain ⟨rig, hrig, hall⟩ := @isEnabled_eq_output_iff {} 0 [] [16, 4] true rfl
    (by decide) (by decide)
  refine ⟨rig, hrig, [.request .start, .request (.on ⟨.hdmi, 0, 1⟩ (.setEnabled false)),
    .request .stop, .request .start], ?_⟩
  obtain rfl := Except.ok.inj hrig
  obtain ⟨before, after, hsplit, hidle, -, -, hiff⟩ := hall [.request .start,
    .request (.on ⟨.hdmi, 0, 1⟩ (.setEnabled false)), .request .stop, .request .start] rfl
  have hoff := mt (hiff ⟨.hdmi, 0, 2⟩ _ rfl).mpr fun he => absurd he (by decide)
  rw [not_or, Bool.not_eq_true] at hoff
  exact ⟨rfl, rfl, before, after, hsplit, hidle, hoff⟩

end Rig

end VideoOutput
