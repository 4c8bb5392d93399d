import VideoOutput.Proofs.Callbacks

/-!
# When to dispatch

How often notices are dispatched does not matter, as long as the queue has room for them. A round
pushes some notices and dispatches; on an active controller with an empty queue it applies the
notices to the connectors and does nothing else (`run_round`). What a notice is delivered to and who
is called for it was decided before the round and is the same after it, so that the notices of two
rounds may as well go in one. By induction over the rounds every schedule comes to the same as one
dispatch at the end (`run_schedule_eq`).

What a dispatch reads of the controller, beside the queue, are the places of the connectors, the
callbacks, the generation and whether it is active, and a notice changes none of these
(`delivers_applied`, `call?_applied`). It does change the states of connectors, but a later notice
does not look at them. The room is needed for another reason: a notice that finds the queue full
pushes out an older one, and which notices meet in the queue depends on the schedule.
-/

namespace VideoOutput

open Connector (Notice)

variable {σ : Type} [Firmware σ]

namespace Controller

variable {c : Controller}

/-- The controller with notices applied to its connectors. -/
def applied (c : Controller) (notices : List Notice) : Controller :=
  { c with connectors := c.connectors.map fun x => x.applyAll notices }

theorem applied_nil (c : Controller) : c.applied [] = c := by
  unfold applied
  simp

/-- Notices applied in two goes are applied as one list. -/
theorem applied_applied (c : Controller) (first second : List Notice) :
    (c.applied first).applied second = c.applied (first ++ second) := by
  unfold applied
  rw [List.map_map]
  congr 1
  apply List.map_congr_left
  intro x _
  exact (Connector.applyAll_append x first second).symm

/-- Notices change neither which notices are delivered nor who is called for them. -/
theorem delivers_applied (c : Controller) (notices : List Notice) (n : Notice) :
    (c.applied notices).delivers n = c.delivers n := by
  have hnamed : ∀ x : Connector,
      (x.applyAll notices).isNamedBy (c.noticeHandle n) = x.isNamedBy (c.noticeHandle n) := by
    intro x
    have hplace := Connector.place_applyAll x notices
    have hkind : (x.applyAll notices).kind = x.kind := congrArg Prod.fst hplace
    have hindex : (x.applyAll notices).index = x.index := congrArg Prod.snd hplace
    unfold Connector.isNamedBy
    rw [hkind, hindex]
  show (c.isActive && (c.connectors.map fun x => x.applyAll notices).any fun x =>
    x.isNamedBy (c.noticeHandle n)) = c.delivers n
  rw [List.any_map]
  unfold delivers
  simp only [Function.comp_def, hnamed]

/-- Who is called for a notice does not depend on the notices before it. -/
theorem call?_applied (c : Controller) (notices : List Notice) (n : Notice) :
    (c.applied notices).call? n = c.call? n := by
  unfold call?
  cases n.event.eventClass <;> rfl

/-- What a dispatch of notices would report. -/
def reportOf (c : Controller) (notices : List Notice) : Dispatched :=
  ⟨(notices.filter c.delivers).length, (notices.filter c.delivers).filterMap c.call?⟩

/-- So a report is the same before other notices are applied and after. -/
theorem reportOf_applied (c : Controller) (first second : List Notice) :
    (c.applied first).reportOf second = c.reportOf second := by
  unfold reportOf
  rw [funext (delivers_applied c first), funext (call?_applied c first)]

/-- The controller with these notices in its queue. -/
def holding (c : Controller) (notices : List Notice) : Controller :=
  { c with queue := { c.queue with waiting := notices } }

/-- Pushing notices for which there is room. -/
theorem foldl_push (notices : List Notice)
    (hroom : c.queue.waiting.length + notices.length ≤ c.queue.limit) :
    notices.foldl push c = c.holding (c.queue.waiting ++ notices) := by
  induction notices generalizing c with
  | nil =>
    rw [List.append_nil]
    rfl
  | cons n notices ih =>
    rw [List.length_cons] at hroom
    have hpush : c.push n = c.holding (c.queue.waiting ++ [n]) := by
      unfold push
      rw [Connector.Queue.push_of_room (by omega)]
      rfl
    have hthen : (c.holding (c.queue.waiting ++ [n])).queue.waiting.length + notices.length ≤
        (c.holding (c.queue.waiting ++ [n])).queue.limit := by
      show (c.queue.waiting ++ [n]).length + notices.length ≤ c.queue.limit
      rw [List.length_append, List.length_singleton]
      omega
    rw [List.foldl_cons, hpush, ih hthen]
    show c.holding ((c.queue.waiting ++ [n]) ++ notices) =
      c.holding (c.queue.waiting ++ n :: notices)
    rw [List.append_assoc, List.singleton_append]

/-- A dispatch of held notices applies them all and reports them all. -/
theorem dispatch_holding (hact : c.isActive = true) (hempty : c.queue.waiting = [])
    (notices : List Notice) :
    (c.holding notices).dispatch = (c.applied notices, c.reportOf notices) := by
  have hact' : (c.holding notices).isActive = true := hact
  have hemptied : (c.holding notices).queue.emptied = c.queue := by
    unfold holding Connector.Queue.emptied
    rw [← hempty]
  have hafter : (c.holding notices).dispatch.1 = c.applied notices := by
    rw [dispatch_eq hact', hemptied]
    rfl
  exact Prod.ext hafter rfl

end Controller

namespace Assembly

variable {a : Assembly σ}

/-- Push notices, one after the other, and dispatch. -/
def round (notices : List Notice) : List (Step σ) :=
  notices.map .push ++ [.request .dispatch]

/-- One round for each list of notices. -/
def schedule (rounds : List (List Notice)) : List (Step σ) :=
  rounds.flatMap round

theorem run_pushes (a : Assembly σ) (notices : List Notice) :
    a.run (notices.map .push) =
      { a with controller := notices.foldl Controller.push a.controller } := by
  induction notices generalizing a with
  | nil => rfl
  | cons n notices ih => exact ih (a.step (.push n))

theorem reports_pushes (a : Assembly σ) (notices : List Notice) :
    a.reports (notices.map .push) = [] := by
  induction notices generalizing a with
  | nil => rfl
  | cons n notices ih => exact ih (a.step (.push n))

/-- **A round** applies its notices to the connectors and reports on them. -/
theorem run_round (hact : a.controller.isActive = true) (hempty : a.controller.queue.waiting = [])
    {notices : List Notice} (hroom : notices.length ≤ a.controller.queue.limit) :
    a.run (round notices) = { a with controller := a.controller.applied notices } ∧
      a.reports (round notices) = [a.controller.reportOf notices] := by
  have hpushed : notices.foldl Controller.push a.controller = a.controller.holding notices := by
    have hfits : a.controller.queue.waiting.length + notices.length ≤ a.controller.queue.limit := by
      rw [hempty, List.length_nil, Nat.zero_add]
      exact hroom
    rw [Controller.foldl_push notices hfits, hempty, List.nil_append]
  have hdispatch := Controller.dispatch_holding hact hempty notices
  unfold round
  rw [run_append, reports_append, run_pushes, reports_pushes, hpushed]
  refine ⟨?_, ?_⟩
  · show Assembly.mk (a.controller.holding notices).dispatch.1 a.firmware = _
    rw [hdispatch]
  · show [(a.controller.holding notices).dispatch.2] = _
    rw [hdispatch]

/-- What rounds come to that the queue has room for, one by one. -/
theorem run_schedule (hact : a.controller.isActive = true)
    (hempty : a.controller.queue.waiting = []) {rounds : List (List Notice)}
    (hroom : ∀ notices ∈ rounds, notices.length ≤ a.controller.queue.limit) :
    a.run (schedule rounds) = { a with controller := a.controller.applied rounds.flatten } ∧
      a.reports (schedule rounds) = rounds.map a.controller.reportOf := by
  induction rounds generalizing a with
  | nil =>
    refine ⟨?_, rfl⟩
    rw [List.flatten_nil, Controller.applied_nil]
    rfl
  | cons notices rounds ih =>
    obtain ⟨hrun, hreports⟩ := run_round hact hempty (hroom notices (List.mem_cons_self ..))
    obtain ⟨hrest, hmore⟩ := @ih { a with controller := a.controller.applied notices } hact hempty
      fun later hlater => hroom later (List.mem_cons_of_mem _ hlater)
    show a.run (round notices ++ schedule rounds) = _ ∧
      a.reports (round notices ++ schedule rounds) = _
    rw [run_append, reports_append, hrun, hreports, hrest, hmore]
    refine ⟨?_, ?_⟩
    · rw [Controller.applied_applied, List.flatten_cons]
    · rw [List.map_cons, funext (Controller.reportOf_applied a.controller notices)]
      rfl

/-- Reports on lists of notices, one by one, add up to the report on all of them. -/
theorem reportOf_flatten (c : Controller) (rounds : List (List Notice)) :
    (rounds.map c.reportOf).flatMap Controller.Dispatched.calls =
        (c.reportOf rounds.flatten).calls ∧
      ((rounds.map c.reportOf).map Controller.Dispatched.delivered).sum =
        (c.reportOf rounds.flatten).delivered := by
  induction rounds with
  | nil => exact ⟨rfl, rfl⟩
  | cons notices rounds ih =>
    obtain ⟨hcalls, hdelivered⟩ := ih
    unfold Controller.reportOf at hcalls hdelivered ⊢
    simp only [List.map_cons, List.flatMap_cons, List.sum_cons, List.flatten_cons,
      List.filter_append, List.filterMap_append, List.length_append, hcalls, hdelivered]
    exact ⟨trivial, trivial⟩

/-- **The schedule does not matter.** An active controller whose queue is empty, over any firmware,
is given notices for which the queue has room. However they are cut into rounds, it is in the same
state in the end as if they had all been pushed and then dispatched, with the same calls in the same
order and the same number of delivered notices. -/
theorem run_schedule_eq (hact : a.controller.isActive = true)
    (hempty : a.controller.queue.waiting = []) (notices : List Notice)
    (hroom : notices.length ≤ a.controller.queue.limit) (rounds : List (List Notice))
    (hcut : rounds.flatten = notices) :
    a.run (schedule rounds) = a.run (notices.map .push ++ [.request .dispatch]) ∧
      a.calls (schedule rounds) = a.calls (notices.map .push ++ [.request .dispatch]) ∧
      a.deliveredTotal (schedule rounds) =
        a.deliveredTotal (notices.map .push ++ [.request .dispatch]) := by
  subst hcut
  have hfits : ∀ notices ∈ rounds, notices.length ≤ a.controller.queue.limit := by
    intro notices hnotices
    exact Nat.le_trans (List.sublist_flatten_of_mem hnotices).length_le hroom
  obtain ⟨hrun, hreports⟩ := run_schedule hact hempty hfits
  obtain ⟨hrunOnce, hreportsOnce⟩ := run_round hact hempty hroom
  obtain ⟨hcalls, hdelivered⟩ := reportOf_flatten a.controller rounds
  refine ⟨hrun.trans hrunOnce.symm, ?_, ?_⟩
  · show a.calls (schedule rounds) = a.calls (round rounds.flatten)
    unfold calls
    rw [hreports, hreportsOnce, hcalls]
    exact (List.append_nil _).symm
  · show a.deliveredTotal (schedule rounds) = a.deliveredTotal (round rounds.flatten)
    unfold deliveredTotal
    rw [hreports, hreportsOnce, hdelivered]
    exact (Nat.add_zero _).symm

/-- Four notices of both classes, one of them about no connector that there is, in three rounds of
which one is empty. -/
theorem calls_of_three_rounds :
    ∃ a, fresh 0 {} (⟨.fresh [] [4, 16] true, {}⟩ : Display) = .ok a ∧
      ∃ b, b = a.run [.request .start, .request (.register .display "screen"),
          .request (.register .hdcp "lock")] ∧
        b.run (schedule [[⟨0, .connected⟩], [],
            [⟨0, .hdcp .authenticated⟩, ⟨3, .connected⟩, ⟨0, .disconnected⟩]]) =
          b.run [.push ⟨0, .connected⟩, .push ⟨0, .hdcp .authenticated⟩, .push ⟨3, .connected⟩,
            .push ⟨0, .disconnected⟩, .request .dispatch] ∧
        b.calls [.push ⟨0, .connected⟩, .push ⟨0, .hdcp .authenticated⟩, .push ⟨3, .connected⟩,
            .push ⟨0, .disconnected⟩, .request .dispatch] =
          [⟨"screen", ⟨.hdmi, 0, 1⟩, .connected⟩, ⟨"lock", ⟨.hdmi, 0, 1⟩, .hdcp .authenticated⟩,
            ⟨"screen", ⟨.hdmi, 0, 1⟩, .disconnected⟩] := by
  refine ⟨_, rfl, _, rfl, ?_, rfl⟩
  exact (run_schedule_eq rfl rfl [⟨0, .connected⟩, ⟨0, .hdcp .authenticated⟩, ⟨3, .connected⟩,
    ⟨0, .disconnected⟩] (by decide) _ rfl).1

end Assembly

end VideoOutput
