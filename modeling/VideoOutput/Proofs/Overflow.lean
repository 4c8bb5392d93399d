import Mathlib.Data.List.Induction
import VideoOutput.Proofs.Cycle

/-!
# Dropped notices

A push to a full queue drops the oldest notices, and a queue without room drops the pushed notice
itself. `Queue.overflow` says which notices go. Together with what waits afterwards they are what
waited before and the pushed notice, in this order (`overflow_append_waiting_push`), so a push loses
nothing else, and the counter of the queue counts them in 64 bits (`dropped_push`).

Only what was dropped since the last start can matter to what the controller knows of its display,
as a start asks anew. `Rig.lost` collects it for a run, and `lossless_induction` is how a statement
about a display is carried through a cycle in which nothing was lost.

A run can drop notices and still be lossless in this sense, if it starts anew behind them. The
counter of the queue does not go back then, and it wraps around after 2^64, so that nothing was lost
is said by the list and not by the counter. `Rig.dropped_step` is the tie between the two: in every
step the counter goes up by the number of notices that the step drops.
-/

namespace VideoOutput

namespace Connector.Queue

variable {q : Queue} {notice : Notice}

/-- The notices that a push drops. -/
def overflow (q : Queue) (notice : Notice) : List Notice :=
  if q.limit = 0 then [notice]
  else if full : q.limit ≤ q.waiting.length then q.waiting.take (q.excess full)
  else []

/-- No more notices wait than the queue has room for. -/
def IsBounded (q : Queue) : Prop :=
  q.waiting.length ≤ q.limit

theorem isBounded_emptied (q : Queue) : q.emptied.IsBounded :=
  Nat.zero_le _

/-- A push either meets a queue without room, or makes room in a full one, or appends. -/
theorem push_cases (q : Queue) (notice : Notice) :
    (q.limit = 0 ∧ q.push notice = { q with dropped := q.dropped + 1 } ∧
      q.overflow notice = [notice]) ∨
    (∃ full : q.limit ≤ q.waiting.length, q.limit ≠ 0 ∧
      q.push notice =
        { q with
          waiting := q.waiting.drop (q.excess full) ++ [notice]
          dropped := q.dropped + UInt64.ofNat (q.excess full) } ∧
      q.overflow notice = q.waiting.take (q.excess full)) ∨
    (q.waiting.length < q.limit ∧ q.push notice = { q with waiting := q.waiting ++ [notice] } ∧
      q.overflow notice = []) := by
  unfold Queue.push overflow
  by_cases hnone : q.limit = 0
  · exact .inl ⟨hnone, if_pos hnone, if_pos hnone⟩
  · rw [if_neg hnone, if_neg hnone]
    by_cases hfull : q.limit ≤ q.waiting.length
    · exact .inr (.inl ⟨hfull, hnone, dif_pos hfull, dif_pos hfull⟩)
    · exact .inr (.inr ⟨Nat.lt_of_not_le hfull, dif_neg hfull, dif_neg hfull⟩)

/-- As many notices wait after a push as there is room for. -/
theorem length_waiting_push (h : q.IsBounded) (notice : Notice) :
    (q.push notice).waiting.length = min q.limit (q.waiting.length + 1) := by
  have hbound : q.waiting.length ≤ q.limit := h
  rcases q.push_cases notice with ⟨hnone, hpush, -⟩ | ⟨full, hroom, hpush, -⟩ | ⟨hlt, hpush, -⟩
  · rw [hpush]
    show q.waiting.length = min q.limit (q.waiting.length + 1)
    omega
  · have hexact := q.limit_add_excess full
    rw [hpush]
    show (q.waiting.drop (q.excess full) ++ [notice]).length = min q.limit (q.waiting.length + 1)
    rw [List.length_append, List.length_drop, List.length_singleton]
    omega
  · rw [hpush]
    show (q.waiting ++ [notice]).length = min q.limit (q.waiting.length + 1)
    rw [List.length_append, List.length_singleton]
    omega

/-- A push never makes more notices wait than there is room for. -/
theorem IsBounded.push (h : q.IsBounded) (notice : Notice) : (q.push notice).IsBounded := by
  unfold IsBounded
  rw [Controller.limit_push, length_waiting_push h]
  exact Nat.min_le_left _ _

/-- A push loses no notice but those that it drops, and keeps the order. -/
theorem overflow_append_waiting_push (h : q.IsBounded) (notice : Notice) :
    q.overflow notice ++ (q.push notice).waiting = q.waiting ++ [notice] := by
  rcases q.push_cases notice with ⟨hnone, hpush, hover⟩ | ⟨full, -, hpush, hover⟩ | ⟨-, hpush, hover⟩
  · -- nothing waits in a queue without room
    have hlength : q.waiting.length ≤ 0 := by
      rw [← hnone]
      exact h
    rw [hpush, hover, List.length_eq_zero_iff.mp (Nat.le_zero.mp hlength)]
    rfl
  · rw [hpush, hover, ← List.append_assoc, List.take_append_drop]
  · rw [hpush, hover, List.nil_append]

/-- A push that drops nothing appends. -/
theorem waiting_push_of_overflow (h : q.overflow notice = []) :
    (q.push notice).waiting = q.waiting ++ [notice] := by
  rcases q.push_cases notice with ⟨-, -, hover⟩ | ⟨full, -, hpush, hover⟩ | ⟨-, hpush, -⟩
  · rw [hover] at h
    exact absurd h (by simp)
  · rw [hover] at h
    have hsplit := List.take_append_drop (q.excess full) q.waiting
    rw [h, List.nil_append] at hsplit
    rw [hpush, hsplit]
  · rw [hpush]

/-- While there is room nothing is dropped. -/
theorem push_of_room (h : q.waiting.length < q.limit) (notice : Notice) :
    q.push notice = { q with waiting := q.waiting ++ [notice] } := by
  rcases q.push_cases notice with ⟨hnone, -, -⟩ | ⟨full, -, -, -⟩ | ⟨-, hpush, -⟩
  · omega
  · omega
  · exact hpush

/-- The counter of the queue counts what a push drops. -/
theorem dropped_push (q : Queue) (notice : Notice) :
    (q.push notice).dropped = q.dropped + UInt64.ofNat (q.overflow notice).length := by
  rcases q.push_cases notice with ⟨-, hpush, hover⟩ | ⟨full, hroom, hpush, hover⟩ | ⟨-, hpush, hover⟩
  · rw [hpush, hover]
    rfl
  · have hexact := q.limit_add_excess full
    have hcount : min (q.excess full) q.waiting.length = q.excess full := by omega
    rw [hpush, hover, List.length_take, hcount]
  · rw [hpush, hover]
    exact (UInt64.add_zero _).symm

end Connector.Queue

namespace Controller

theorem queue_dispatch (c : Controller) : c.dispatch.1.queue = c.queue.emptied :=
  dispatch_induction (P := fun c' => c'.queue = c.queue.emptied) rfl fun _ _ _ h => h

/-- No request drops a notice for want of room. -/
theorem Effect.dropped {σ : Type} [Firmware σ] {c c' : Controller} {fw fw' : σ} {r : Request}
    {answer : Except Error Answer} (he : Effect c fw r answer c' fw') :
    c'.queue.dropped = c.queue.dropped := by
  cases he with
  | @registered eventClass => cases eventClass <;> rfl
  | dispatched => rw [queue_dispatch]; rfl
  | _ => rfl

end Controller

namespace Rig

/-- The notice that reaches the queue of the controller when the display announces an event. -/
def announced? (rig : Rig) (index : UInt8) (event : Connector.Event) : Option Connector.Notice :=
  if rig.display.inner.attached = some rig.controller.queueId then some ⟨index, event⟩ else none

/-- The notice that a step pushes to the queue of the controller. -/
def notice? (rig : Rig) : Step → Option Connector.Notice
  | .push notice => some notice
  | .hotplug isConnected => rig.announced? 0 (Firmware.Simulator.hotplugEvent isConnected)
  | .reportHdcp status => rig.announced? 0 (.hdcp status)
  | _ => none

/-- The notices that a step drops for want of room. -/
def droppedBy (rig : Rig) (s : Step) : List Connector.Notice :=
  match rig.notice? s with
  | some notice => rig.controller.queue.overflow notice
  | none => []

/-- A display that announces an event does nothing else to the controller. -/
theorem announce_eq (rig : Rig) (index : UInt8) (event : Connector.Event) :
    rig.announce index event =
      match rig.announced? index event with
      | some notice => { rig with controller := rig.controller.push notice }
      | none => rig := by
  unfold announce announced? Firmware.Simulator.announcement
  cases rig.display.inner.attached with
  | none => rfl
  | some queue =>
    by_cases hown : queue = rig.controller.queueId
    · simp [hown]
    · simp [hown]

/-- What the display announces is pushed, so the counter goes up by what this push drops. -/
theorem dropped_announce (rig : Rig) (index : UInt8) (event : Connector.Event) :
    (rig.announce index event).controller.queue.dropped =
      rig.controller.queue.dropped + UInt64.ofNat
        (match rig.announced? index event with
          | some notice => rig.controller.queue.overflow notice
          | none => []).length := by
  rw [announce_eq]
  split
  next => exact Connector.Queue.dropped_push _ _
  next => simp

/-- The counter of the queue goes up by what a step drops. -/
theorem dropped_step (rig : Rig) (s : Step) :
    (rig.step s).controller.queue.dropped =
      rig.controller.queue.dropped + UInt64.ofNat (rig.droppedBy s).length := by
  cases s with
  | request request =>
    have he := Controller.perform_isEffect rig.controller rig.display request
    show (rig.controller.perform rig.display request).controller.queue.dropped = _
    rw [he.dropped]
    simp [droppedBy, notice?]
  | push notice => exact Connector.Queue.dropped_push _ _
  | hotplug isConnected =>
    exact dropped_announce (rig.changeSimulator fun sim => sim.plugged isConnected) 0 _
  | reportHdcp status => exact dropped_announce rig 0 _
  | drain | replaceDisplay | setFailing | setFaults =>
    simp [droppedBy, notice?, step, changeSimulator, Controller.emptyQueue, Connector.Queue.emptied]

/-! ## Since the last start -/

/-- The step begins a cycle. -/
def begins (rig : Rig) (s : Step) : Bool :=
  !rig.controller.isActive && (rig.step s).controller.isActive

/-- What a run drops from its last start on, with what was dropped before it, if it has none. -/
def lostAfter (rig : Rig) (lost : List Connector.Notice) : List Step → List Connector.Notice
  | [] => lost
  | s :: steps =>
    (rig.step s).lostAfter (if rig.begins s then [] else lost ++ rig.droppedBy s) steps

/-- The notices dropped in a run since the last start that succeeded. What one step drops is what the
counter of the queue goes up by (`dropped_step`), so nothing is lost exactly while this counter stands
still, up to a multiple of 2 ^ 64. -/
def lost (rig : Rig) (steps : List Step) : List Connector.Notice :=
  rig.lostAfter [] steps

theorem lostAfter_append (rig : Rig) (lost : List Connector.Notice) (first second : List Step) :
    rig.lostAfter lost (first ++ second) =
      (rig.run first).lostAfter (rig.lostAfter lost first) second := by
  induction first generalizing rig lost with
  | nil => rfl
  | cons s first ih => rw [List.cons_append, lostAfter, ih, lostAfter, run_cons]

/-- A start that succeeds makes up for everything lost before; any other step adds what it drops. -/
theorem lost_append_singleton (rig : Rig) (steps : List Step) (s : Step) :
    rig.lost (steps ++ [s]) =
      if (rig.run steps).begins s then [] else rig.lost steps ++ (rig.run steps).droppedBy s :=
  lostAfter_append rig [] steps [s]

/-- **Induction over a cycle in which nothing was lost.** What every start establishes, and every
step of a cycle keeps that drops nothing, holds after a run that ends active. -/
theorem lossless_induction {P : Rig → Prop} {rig : Rig} {steps : List Step}
    (hidle : rig.controller.isActive = false)
    (hstart : ∀ before, (rig.run before).controller.isActive = false →
      ((rig.run before).step (.request .start)).controller.isActive = true →
      P ((rig.run before).step (.request .start)))
    (hstep : ∀ before s after, steps = before ++ s :: after →
      (rig.run before).controller.isActive = true → s ≠ .request .stop →
      (rig.run before).droppedBy s = [] → P (rig.run before) → P ((rig.run before).step s))
    (hact : (rig.run steps).controller.isActive = true) (hlost : rig.lost steps = []) :
    P (rig.run steps) := by
  -- by the last step: it begins the cycle, or it belongs to one in which nothing was lost before
  induction steps using List.reverseRecOn with
  | nil => exact absurd (hidle.symm.trans hact) (by simp)
  | append_singleton steps s ih =>
    have hrun : rig.run (steps ++ [s]) = (rig.run steps).step s := run_append rig steps [s]
    rw [hrun] at hact ⊢
    rw [lost_append_singleton] at hlost
    cases hprev : (rig.run steps).controller.isActive with
    | false =>
      obtain rfl := eq_start_of_isActive hprev hact
      exact hstart steps hprev hact
    | true =>
      have hgoes : (rig.run steps).begins s = false := by
        unfold begins
        rw [hprev]
        rfl
      rw [hgoes, if_neg Bool.false_ne_true] at hlost
      obtain ⟨hearlier, hnow⟩ := List.append_eq_nil_iff.mp hlost
      have hstop : s ≠ .request .stop := by
        rintro rfl
        exact absurd ((isActive_stop _).symm.trans hact) (by simp)
      refine hstep steps s [] rfl hprev hstop hnow (ih ?_ hprev hearlier)
      intro before t after hsplit
      refine hstep before t (after ++ [s]) ?_
      rw [hsplit, List.append_assoc, List.cons_append]

end Rig

end VideoOutput
