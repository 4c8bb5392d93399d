import VideoOutput.Proofs.Handles
import VideoOutput.Proofs.Overflow
import VideoOutput.Proofs.Waiting

/-!
# What becomes of a notice

Every notice that is pushed waits, and leaves the queue once: dropped for want of room, emptied out
by a start, or taken out by a dispatch, which delivers it or discards it. `leaves` names the notices
that leave in a step, each with its fate.

The ledger balances in every step (`leaving_append_waiting_step`): what leaves and what waits
afterwards are what waited before and what was pushed, in this order. Over a run this gives each
pushed notice exactly one fate, and keeps the notices in the order in which they were pushed
(`fst_fates`). From a queue that a start has emptied nothing older can be delivered
(`fst_fates_of_clears`).

The steps are those of a controller over any firmware, so the only requests that touch the queue are
a start and a dispatch (`Effect.queue`). What the firmware announces and what a callback pushes are
pushes of the run like any others. Fates are told apart by the step in which a notice leaves: only a
dispatch delivers, only a push drops, only a drain from outside takes (`fateIn_ne_delivered` and its
companions), so that the totals of a run are sums over its steps.
-/

namespace VideoOutput

namespace Connector

/-- What becomes of a notice that was pushed. -/
inductive Fate where
  | waiting
  /-- It was dropped for want of room. -/
  | overflowed
  /-- A start emptied the queue. -/
  | outdated
  /-- The queue was drained past the controller. -/
  | taken
  /-- It was dispatched while the controller was inactive. -/
  | idle
  /-- It was dispatched and is about no HDMI connector that there is. -/
  | unknown
  | delivered
  deriving DecidableEq

/-- The notices with a certain fate. -/
def ofFate (fate : Fate) (entries : List (Notice × Fate)) : List Notice :=
  (entries.filter fun entry => entry.2 == fate).map Prod.fst

/-- The notices of a fate are collected part by part. -/
theorem ofFate_append (fate : Fate) (first second : List (Notice × Fate)) :
    ofFate fate (first ++ second) = ofFate fate first ++ ofFate fate second := by
  unfold ofFate
  rw [List.filter_append, List.map_append]

theorem ofFate_sublist (fate : Fate) (entries : List (Notice × Fate)) :
    (ofFate fate entries).Sublist (entries.map Prod.fst) :=
  List.filter_sublist.map _

/-- Notices that all get a fate by one rule. -/
theorem ofFate_map (fate : Fate) (rule : Notice → Fate) (notices : List Notice) :
    ofFate fate (notices.map fun n => (n, rule n)) = notices.filter fun n => rule n == fate := by
  unfold ofFate
  rw [List.filter_map, List.map_map]
  exact List.map_id _

theorem fst_map_pair (rule : Notice → Fate) (notices : List Notice) :
    (notices.map fun n => (n, rule n)).map Prod.fst = notices := by
  rw [List.map_map]
  exact List.map_id _

end Connector

open Connector (Notice Fate)

variable {σ : Type} [Firmware σ]

namespace Controller

/-- What a dispatch makes of a notice. -/
def fate (c : Controller) (notice : Notice) : Fate :=
  if !c.isActive then .idle else if c.delivers notice then .delivered else .unknown

/-- A notice is delivered by a dispatch exactly if the controller says so. -/
theorem fate_beq_delivered (c : Controller) (notice : Notice) :
    (c.fate notice == .delivered) = c.delivers notice := by
  unfold fate delivers
  cases c.isActive with
  | false => rfl
  | true => cases c.connectors.any fun x => x.isNamedBy (c.noticeHandle notice) <;> rfl

/-- A dispatch discards a notice for one of two reasons, or delivers it. -/
theorem fate_cases (c : Controller) (notice : Notice) :
    c.fate notice = .idle ∨ c.fate notice = .unknown ∨ c.fate notice = .delivered := by
  unfold fate
  split
  next => exact .inl rfl
  next =>
    split
    next => exact .inr (.inr rfl)
    next => exact .inr (.inl rfl)

/-- Notices are delivered to the HDMI connectors that there are, while the controller is active. -/
theorem delivers_iff {c : Controller} {settings : Settings} {notice : Notice}
    (hplaces : c.connectors.map place = settings.places) :
    c.delivers notice = true ↔ c.isActive = true ∧ notice.index < settings.hdmiCount := by
  have hplace : (c.connectors.any fun x => x.isNamedBy (c.noticeHandle notice)) = true ↔
      (Connector.Kind.hdmi, notice.index) ∈ c.connectors.map place := by
    rw [List.any_eq_true, List.mem_map]
    simp only [isNamedBy_iff, place, Prod.mk.injEq]
    rfl
  unfold delivers
  rw [Bool.and_eq_true, hplace, hplaces, Settings.mem_places]
  rfl

/-- The request takes everything out of the queue: a dispatch, or a start once the firmware is
started, even if the start fails after that. -/
def clears (c : Controller) (fw : σ) : Request → Bool
  | .start => !c.isActive && (Firmware.start fw).answer.isOk
  | .dispatch => true
  | _ => false

/-- A start empties the queue if the firmware started, even where it fails on the link afterwards.
-/
theorem queue_start (c : Controller) (fw : σ) :
    (c.start fw).controller.queue = if c.clears fw .start then c.queue.emptied else c.queue := by
  unfold start clears
  cases c.isActive with
  | true => rfl
  | false =>
    simp only [Bool.false_eq_true, if_false]
    cases (Firmware.start fw).answer with
    | error failure => rfl
    | ok _ =>
      dsimp only
      rw [show c.emptyQueue.queueId = c.queueId from rfl, askedAtStart_eq]
      cases (c.askedAtStart fw).answer <;> rfl

/-- Other requests than a start and a dispatch leave the queue alone. -/
theorem Effect.queue {c c' : Controller} {fw fw' : σ} {r : Request}
    {answer : Except Error Answer} (he : Effect c fw r answer c' fw') (hstart : r ≠ .start)
    (hdispatch : r ≠ .dispatch) : c'.queue = c.queue := by
  cases he with
  | startRefused | linkRefused | started => exact absurd rfl hstart
  | dispatched => exact absurd rfl hdispatch
  | @registered eventClass => cases eventClass <;> rfl
  | _ => rfl

/-- A request takes everything out of the queue or leaves it alone. -/
theorem queue_perform (c : Controller) (fw : σ) (r : Request) :
    (c.perform fw r).controller.queue = if c.clears fw r then c.queue.emptied else c.queue := by
  have he := perform_isEffect c fw r
  cases r with
  | start => exact queue_start c fw
  | dispatch => exact queue_dispatch c
  | stop | handle | on | register => exact he.queue (by simp) (by simp)

end Controller

namespace Assembly

/-- What the steps of a run yield, one after the other. -/
def collect {β : Type} (yields : Assembly σ → Step σ → List β) (a : Assembly σ) :
    List (Step σ) → List β
  | [] => []
  | s :: steps => yields a s ++ collect yields (a.step s) steps

/-- What the steps of a run yield is collected part by part. -/
theorem collect_append {β : Type} (yields : Assembly σ → Step σ → List β) (a : Assembly σ)
    (first second : List (Step σ)) :
    a.collect yields (first ++ second) =
      a.collect yields first ++ (a.run first).collect yields second := by
  induction first generalizing a with
  | nil => rfl
  | cons s first ih => rw [List.cons_append, collect, collect, ih, run_cons, List.append_assoc]

/-- The notice that a step pushes. -/
def Step.pushed : Step σ → List Notice
  | .push notice => [notice]
  | _ => []

/-- The notices that leave the queue in a step. -/
def leaving (a : Assembly σ) : Step σ → List Notice
  | .request request =>
    if a.controller.clears a.firmware request then a.controller.queue.waiting else []
  | .push notice => a.controller.queue.overflow notice
  | .drain => a.controller.queue.waiting
  | .firmware _ => []

/-- The fate of a notice that leaves in a step. -/
def fateIn (a : Assembly σ) : Step σ → Notice → Fate
  | .request .dispatch => a.controller.fate
  | .push _ => fun _ => .overflowed
  | .drain => fun _ => .taken
  | _ => fun _ => .outdated

/-- The notices that leave the queue in a step, with their fates. -/
def leaves (a : Assembly σ) (s : Step σ) : List (Notice × Fate) :=
  (a.leaving s).map fun n => (n, a.fateIn s n)

/-- The notices that a run pushes. -/
def pushes (steps : List (Step σ)) : List Notice :=
  steps.flatMap Step.pushed

/-- The notices that leave the queue in a run, with their fates. -/
def departures (a : Assembly σ) (steps : List (Step σ)) : List (Notice × Fate) :=
  a.collect leaves steps

/-- The notices of a run with what has become of them at its end. -/
def fates (a : Assembly σ) (steps : List (Step σ)) : List (Notice × Fate) :=
  a.departures steps ++ (a.run steps).controller.queue.waiting.map fun n => (n, .waiting)

/-- The notices that a run delivers. -/
def delivered (a : Assembly σ) (steps : List (Step σ)) : List Notice :=
  Connector.ofFate .delivered (a.departures steps)

variable {a : Assembly σ} {steps : List (Step σ)}

omit [Firmware σ] in
theorem pushes_append (first second : List (Step σ)) :
    pushes (first ++ second) = pushes first ++ pushes second :=
  List.flatMap_append

/-- What leaves in the first part of a run leaves before what leaves in the second. -/
theorem departures_append (a : Assembly σ) (first second : List (Step σ)) :
    a.departures (first ++ second) = a.departures first ++ (a.run first).departures second :=
  collect_append leaves a first second

/-- A notice that is pushed in the first part may meet its fate in the second one. -/
theorem fates_append (a : Assembly σ) (first second : List (Step σ)) :
    a.fates (first ++ second) = a.departures first ++ (a.run first).fates second := by
  unfold fates
  rw [departures_append, run_append, List.append_assoc]

theorem delivered_cons (a : Assembly σ) (s : Step σ) (steps : List (Step σ)) :
    a.delivered (s :: steps) =
      Connector.ofFate .delivered (a.leaves s) ++ (a.step s).delivered steps :=
  Connector.ofFate_append _ _ _

/-! ## Which step gives which fate -/

/-- A step gives one fate to those notices that leave in it and are judged so. -/
theorem ofFate_leaves (fate : Fate) (a : Assembly σ) (s : Step σ) :
    Connector.ofFate fate (a.leaves s) = (a.leaving s).filter fun n => a.fateIn s n == fate :=
  Connector.ofFate_map fate _ _

/-- A step that gives a fate to nothing contributes nothing to it. -/
theorem ofFate_leaves_of_ne {fate : Fate} {s : Step σ} (h : ∀ n, a.fateIn s n ≠ fate) :
    Connector.ofFate fate (a.leaves s) = [] := by
  rw [ofFate_leaves, List.filter_eq_nil_iff]
  intro n _ hn
  exact h n (beq_iff_eq.mp hn)

/-- What a dispatch delivers are the deliverable notices, in their order. -/
theorem ofFate_leaves_dispatch (a : Assembly σ) :
    Connector.ofFate .delivered (a.leaves (.request .dispatch)) = a.controller.deliverable := by
  rw [ofFate_leaves]
  exact List.filter_congr fun n _ => a.controller.fate_beq_delivered n

omit [Firmware σ] in
/-- Only a dispatch delivers. -/
theorem fateIn_ne_delivered {s : Step σ} (hs : s ≠ .request .dispatch) (n : Notice) :
    a.fateIn s n ≠ .delivered := by
  cases s with
  | push | drain | firmware => simp [fateIn]
  | request request =>
    cases request with
    | dispatch => exact absurd rfl hs
    | start | stop | handle | on | register => simp [fateIn]

omit [Firmware σ] in
/-- Only a push drops notices for want of room. -/
theorem fateIn_ne_overflowed {s : Step σ} (hs : ∀ notice, s ≠ .push notice) (n : Notice) :
    a.fateIn s n ≠ .overflowed := by
  cases s with
  | push notice => exact absurd rfl (hs notice)
  | drain | firmware => simp [fateIn]
  | request request =>
    cases request with
    | dispatch => rcases a.controller.fate_cases n with h | h | h <;> simp [fateIn, h]
    | start | stop | handle | on | register => simp [fateIn]

omit [Firmware σ] in
/-- Only a drain past the controller takes notices away from it. -/
theorem fateIn_ne_taken {s : Step σ} (hs : s ≠ .drain) (n : Notice) : a.fateIn s n ≠ .taken := by
  cases s with
  | drain => exact absurd rfl hs
  | push | firmware => simp [fateIn]
  | request request =>
    cases request with
    | dispatch => rcases a.controller.fate_cases n with h | h | h <;> simp [fateIn, h]
    | start | stop | handle | on | register => simp [fateIn]

/-- Without a drain from outside no notice is taken away. -/
theorem fate_ne_taken (hdrain : Step.drain ∉ steps) {entry : Notice × Fate}
    (hentry : entry ∈ a.fates steps) : entry.2 ≠ .taken := by
  induction steps generalizing a with
  | nil =>
    obtain ⟨n, -, rfl⟩ := List.mem_map.mp hentry
    simp
  | cons s steps ih =>
    obtain ⟨hfirst, hrest⟩ := List.ne_and_not_mem_of_not_mem_cons hdrain
    rw [show a.fates (s :: steps) = a.leaves s ++ (a.step s).fates steps from
      List.append_assoc _ _ _, List.mem_append] at hentry
    rcases hentry with hnow | hlater
    · obtain ⟨n, -, rfl⟩ := List.mem_map.mp hnow
      exact fateIn_ne_taken hfirst.symm n
    · exact ih hrest hlater

/-! ## The counter of dropped notices -/

/-- The counter goes up by the number of notices that a step drops for want of room. -/
theorem dropped_step (a : Assembly σ) (s : Step σ) :
    (a.step s).controller.queue.dropped = a.controller.queue.dropped +
      UInt64.ofNat (Connector.ofFate .overflowed (a.leaves s)).length := by
  cases s with
  | push notice =>
    have hall : Connector.ofFate .overflowed (a.leaves (.push notice)) =
        a.controller.queue.overflow notice := by
      rw [ofFate_leaves]
      exact List.filter_eq_self.mpr fun _ _ => rfl
    rw [hall]
    exact Connector.Queue.dropped_push _ _
  | drain | firmware =>
    rw [ofFate_leaves_of_ne (fateIn_ne_overflowed (by simp))]
    exact (UInt64.add_zero _).symm
  | request request =>
    have he := Controller.perform_isEffect a.controller a.firmware request
    rw [ofFate_leaves_of_ne (fateIn_ne_overflowed (by simp))]
    exact he.dropped.trans (UInt64.add_zero _).symm

/-- The counter of the queue counts the notices that were dropped for want of room. -/
theorem dropped_run (a : Assembly σ) (steps : List (Step σ)) :
    (a.run steps).controller.queue.dropped = a.controller.queue.dropped +
      UInt64.ofNat (Connector.ofFate .overflowed (a.departures steps)).length := by
  induction steps generalizing a with
  | nil => exact (UInt64.add_zero _).symm
  | cons s steps ih =>
    have hsplit : Connector.ofFate .overflowed (a.departures (s :: steps)) =
        Connector.ofFate .overflowed (a.leaves s) ++
          Connector.ofFate .overflowed ((a.step s).departures steps) :=
      Connector.ofFate_append _ _ _
    rw [run_cons, ih, dropped_step, hsplit, List.length_append, UInt64.ofNat_add, UInt64.add_assoc]

/-! ## The balance -/

/-- No step makes more notices wait than there is room for. -/
theorem isBounded_step (h : a.controller.queue.IsBounded) (s : Step σ) :
    (a.step s).controller.queue.IsBounded := by
  cases s with
  | push notice => exact h.push notice
  | drain => exact Connector.Queue.isBounded_emptied _
  | firmware fw => exact h
  | request request =>
    show (a.controller.perform a.firmware request).controller.queue.IsBounded
    rw [Controller.queue_perform]
    split
    next => exact Connector.Queue.isBounded_emptied _
    next => exact h

theorem isBounded_run (h : a.controller.queue.IsBounded) (steps : List (Step σ)) :
    (a.run steps).controller.queue.IsBounded := by
  induction steps generalizing a with
  | nil => exact h
  | cons s steps ih => exact ih (isBounded_step h s)

/-- **The balance of a step.** What leaves and what waits afterwards are what waited before and
what was pushed. -/
theorem leaving_append_waiting_step (h : a.controller.queue.IsBounded) (s : Step σ) :
    a.leaving s ++ (a.step s).controller.queue.waiting =
      a.controller.queue.waiting ++ s.pushed := by
  cases s with
  | push notice => exact Connector.Queue.overflow_append_waiting_push h notice
  | drain => rfl
  | firmware fw => exact (List.append_nil _).symm
  | request request =>
    show (if a.controller.clears a.firmware request then a.controller.queue.waiting else []) ++
      (a.controller.perform a.firmware request).controller.queue.waiting =
        a.controller.queue.waiting ++ []
    rw [Controller.queue_perform]
    split
    next => rfl
    next => exact (List.append_nil _).symm

/-- **The balance of a run.** -/
theorem departures_append_waiting_run (h : a.controller.queue.IsBounded) (steps : List (Step σ)) :
    (a.departures steps).map Prod.fst ++ (a.run steps).controller.queue.waiting =
      a.controller.queue.waiting ++ pushes steps := by
  induction steps generalizing a with
  | nil => exact (List.append_nil _).symm
  | cons s steps ih =>
    have hstep := leaving_append_waiting_step h s
    have hrest := ih (isBounded_step h s)
    calc (a.departures (s :: steps)).map Prod.fst ++ (a.run (s :: steps)).controller.queue.waiting
        = a.leaving s ++ (((a.step s).departures steps).map Prod.fst ++
            ((a.step s).run steps).controller.queue.waiting) := by
          rw [departures, collect, List.map_append, leaves, Connector.fst_map_pair,
            List.append_assoc]
          rfl
      _ = a.leaving s ++ ((a.step s).controller.queue.waiting ++ pushes steps) := by
          rw [hrest]
      _ = a.controller.queue.waiting ++ pushes (s :: steps) := by
          rw [← List.append_assoc, hstep, List.append_assoc]
          rfl

/-- **Every pushed notice has one fate**, and they stay in the order in which they were pushed. -/
theorem fst_fates (h : a.controller.queue.IsBounded) (hempty : a.controller.queue.waiting = [])
    (steps : List (Step σ)) : (a.fates steps).map Prod.fst = pushes steps := by
  unfold fates
  rw [List.map_append, Connector.fst_map_pair, departures_append_waiting_run h, hempty]
  rfl

/-- Notices are delivered in the order in which they were pushed. -/
theorem delivered_sublist (h : a.controller.queue.IsBounded)
    (hempty : a.controller.queue.waiting = []) (steps : List (Step σ)) :
    (a.delivered steps).Sublist (pushes steps) := by
  rw [← fst_fates h hempty steps]
  unfold fates
  rw [List.map_append]
  exact (Connector.ofFate_sublist _ _).trans (List.sublist_append_left _ _)

/-- **A start that empties the queue draws a line**: the notices pushed before it have left when it
is over, and those with a fate after it were pushed after it. So only these can be delivered. -/
theorem fst_fates_of_clears (h : a.controller.queue.IsBounded)
    (hempty : a.controller.queue.waiting = []) (before after : List (Step σ))
    (hclears : (a.run before).controller.clears (a.run before).firmware .start = true) :
    (a.departures (before ++ [.request .start])).map Prod.fst = pushes before ∧
      ((a.run (before ++ [.request .start])).fates after).map Prod.fst = pushes after ∧
      ((a.run (before ++ [.request .start])).delivered after).Sublist (pushes after) := by
  have hbounded := isBounded_run h (before ++ [.request .start])
  have hwaiting : (a.run (before ++ [.request .start])).controller.queue.waiting = [] := by
    rw [run_append]
    show ((a.run before).controller.start (a.run before).firmware).controller.queue.waiting = []
    rw [Controller.queue_start, if_pos hclears]
    rfl
  refine ⟨?_, fst_fates hbounded hwaiting after, delivered_sublist hbounded hwaiting after⟩
  have hbalance := departures_append_waiting_run h (before ++ [.request .start])
  rw [hwaiting, hempty, List.append_nil, pushes_append] at hbalance
  rw [hbalance]
  exact List.append_nil _

end Assembly

end VideoOutput
