import Mathlib.Data.List.Induction
import VideoOutput.Proofs.Rig

/-!
# Cycles

A cycle of a controller begins with a start that succeeds and lasts until the next stop. Nothing
else activates a controller or deactivates it, so a run that ends active splits in one way: into
what came before the cycle, its start, and steps without a stop (`exists_start_of_isActive`).

The split is what turns an invariant of cycles into a theorem about runs. A property that a start
establishes and that every step but a stop keeps holds of every active controller, whatever the
cycles before were like: they were left behind by the start. The modules on the link, on remembered
resolutions and on the output flag use it in this way, each with its own lemma for the start.

A start that fails is no exception. If the firmware refuses to start, the controller stays as it
was; if it starts and cannot tell the link, it is stopped again and the controller stays inactive. A
start of an active controller is refused, so no cycle begins within a cycle.
-/

namespace VideoOutput

namespace Controller

/-- Only a start activates a controller, and only a stop deactivates it. -/
theorem Effect.isActive {σ : Type} [Firmware σ] {c c' : Controller} {fw fw' : σ} {r : Request}
    {answer : Except Error Answer} (he : Effect c fw r answer c' fw') :
    c'.isActive = c.isActive ∨ (r = .start ∧ c'.isActive = true) ∨
      (r = .stop ∧ c'.isActive = false) := by
  cases he with
  | started => exact .inr (.inl ⟨rfl, rfl⟩)
  | stopped => exact .inr (.inr ⟨rfl, rfl⟩)
  | registered => exact .inl (by cases ‹Connector.EventClass› <;> rfl)
  | dispatched => exact .inl (isActive_dispatch c)
  | _ => exact .inl rfl

end Controller

namespace Rig

variable {rig : Rig}

/-- What the display announces neither starts nor stops a controller. -/
theorem isActive_announce (rig : Rig) (index : UInt8) (event : Connector.Event) :
    (rig.announce index event).controller.isActive = rig.controller.isActive :=
  announce_induction (P := fun r => r.controller.isActive = rig.controller.isActive) rfl
    (fun _ => rfl) index event

/-- A step that is no request leaves the controller active or inactive. -/
theorem isActive_step_or (rig : Rig) (s : Step) :
    (rig.step s).controller.isActive = rig.controller.isActive ∨
      (s = .request .start ∧ (rig.step s).controller.isActive = true) ∨
      (s = .request .stop ∧ (rig.step s).controller.isActive = false) := by
  cases s with
  | request request =>
    rcases (Controller.perform_isEffect rig.controller rig.display request).isActive with
      h | ⟨rfl, h⟩ | ⟨rfl, h⟩
    · exact .inl h
    · exact .inr (.inl ⟨rfl, h⟩)
    · exact .inr (.inr ⟨rfl, h⟩)
  | hotplug isConnected =>
    exact .inl (isActive_announce (rig.changeSimulator fun sim => sim.plugged isConnected) 0 _)
  | reportHdcp status => exact .inl (isActive_announce rig 0 _)
  | push | drain | replaceDisplay | setFailing | setFaults => exact .inl rfl

/-- An active controller stays so until it is stopped. -/
theorem isActive_step {s : Step} (h : rig.controller.isActive = true) (hs : s ≠ .request .stop) :
    (rig.step s).controller.isActive = true := by
  rcases isActive_step_or rig s with hsame | ⟨-, hon⟩ | ⟨hstop, -⟩
  · rw [hsame, h]
  · exact hon
  · exact absurd hstop hs

/-- Only a start begins a cycle. -/
theorem eq_start_of_isActive {s : Step} (h : rig.controller.isActive = false)
    (h' : (rig.step s).controller.isActive = true) : s = .request .start := by
  rcases isActive_step_or rig s with hsame | ⟨hstart, -⟩ | ⟨-, hoff⟩
  · exact absurd (h'.symm.trans (hsame.trans h)) (by simp)
  · exact hstart
  · exact absurd (h'.symm.trans hoff) (by simp)

/-- A stop leaves no controller active. -/
theorem isActive_stop (rig : Rig) : (rig.step (.request .stop)).controller.isActive = false := by
  show (rig.controller.stop rig.display).controller.isActive = false
  unfold Controller.stop
  cases hact : rig.controller.isActive with
  | false => exact hact
  | true => rfl

/-- **A run that ends active** is a run that ends inactive, a start, and the rest of the cycle. -/
theorem exists_start_of_isActive {steps : List Step} (hidle : rig.controller.isActive = false)
    (h : (rig.run steps).controller.isActive = true) :
    ∃ before after, steps = before ++ .request .start :: after ∧
      (rig.run before).controller.isActive = false ∧
      ((rig.run before).step (.request .start)).controller.isActive = true ∧
      Step.request .stop ∉ after := by
  -- by the last step: it belongs to the cycle that was going on, or it is the start of a new one
  induction steps using List.reverseRecOn with
  | nil => exact absurd (hidle.symm.trans h) (by simp)
  | append_singleton steps s ih =>
    have hlast : ((rig.run steps).step s).controller.isActive = true := by
      rw [run_append] at h
      exact h
    cases hprev : (rig.run steps).controller.isActive with
    | true =>
      obtain ⟨before, after, rfl, hbefore, hstart, hafter⟩ := ih hprev
      refine ⟨before, after ++ [s], by simp, hbefore, hstart, fun hmem => ?_⟩
      rcases List.mem_append.mp hmem with hmem | hmem
      · exact hafter hmem
      · rw [← List.mem_singleton.mp hmem] at hlast
        exact absurd ((isActive_stop _).symm.trans hlast) (by simp)
    | false =>
      obtain rfl := eq_start_of_isActive hprev hlast
      exact ⟨steps, [], rfl, hprev, hlast, List.not_mem_nil⟩

end Rig

end VideoOutput
