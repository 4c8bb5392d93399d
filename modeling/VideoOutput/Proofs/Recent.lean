import Mathlib.Algebra.Group.Nat.Defs
import Mathlib.Data.List.Forall2
import VideoOutput.Proofs.Overflow

/-!
# What waits in a queue

A queue is pushed to and drained. `rounds` cuts the notices that a run pushes at the drains, and
`IsRecent` says of some notices that they are the last ones of a round, as many as there is room
for. Each push keeps this of what waits (`isRecent_push`), so each drain returns the recent notices
of its round and what waits at the end are those of the round that is still open
(`forall₂_isRecent`).

What a run drops (`lost`) is accounted for step by step: it goes out in front of what is returned
and of what waits (`lostBy_append`). Hence nothing is returned twice or out of order, and the
counter is the number of pushed notices that were neither returned nor still wait (`keeps_account`).

A push on a full queue makes room first, and how much is a difference that must not be negative. The
queue takes it only behind its guard, where it is exact (`excess?_eq_some_iff`). On a queue that
respects its limit it is always one (`excess?_of_full`), and since every use keeps to the limit
(`IsBounded.use`), every push of a run drops one notice or none.
-/

namespace VideoOutput.Connector

open scoped List

/-- The notices are the last ones of a list, as many as a limit allows, in their order. -/
structure IsRecent (limit : Nat) (all recent : List Notice) : Prop where
  suffix : recent <:+ all
  length : recent.length = min limit all.length

theorem isRecent_nil (limit : Nat) : IsRecent limit [] [] :=
  ⟨List.suffix_refl [], (Nat.min_zero limit).symm⟩

namespace Queue

/-- What can be done to a queue. -/
inductive Use where
  | push (notice : Notice)
  | drain

/-- The queue after a use. -/
def use (q : Queue) : Use → Queue
  | .push notice => q.push notice
  | .drain => q.emptied

/-- The queue after a run of uses. -/
def run (q : Queue) (uses : List Use) : Queue :=
  uses.foldl use q

/-- A queue that was never used. -/
def ofLimit (limit : Nat) : Queue := { limit }

/-- What a use returns: a drain returns everything that waits. -/
def returned (q : Queue) : Use → List (List Notice)
  | .push _ => []
  | .drain => [q.waiting]

/-- What the drains of a run return, one after the other. -/
def drains (q : Queue) : List Use → List (List Notice)
  | [] => []
  | u :: uses => q.returned u ++ (q.use u).drains uses

/-- The notice that a use pushes. -/
def Use.pushed : Use → List Notice
  | .push notice => [notice]
  | .drain => []

/-- The notices that a run pushes. -/
def pushes (uses : List Use) : List Notice :=
  uses.flatMap Use.pushed

/-- The use takes everything out of the queue. -/
def Use.isDrain : Use → Bool
  | .push _ => false
  | .drain => true

/-- The notices that a run pushes, cut at the drains. The last round is still open. -/
def rounds (uses : List Use) : List (List Notice) :=
  (uses.splitOnP Use.isDrain).map pushes

variable {q : Queue}

@[simp] theorem run_nil (q : Queue) : q.run [] = q := rfl

@[simp] theorem run_cons (q : Queue) (u : Use) (uses : List Use) :
    q.run (u :: uses) = (q.use u).run uses := rfl

theorem run_append (q : Queue) (first second : List Use) :
    q.run (first ++ second) = (q.run first).run second :=
  List.foldl_append

theorem limit_use (q : Queue) (u : Use) : (q.use u).limit = q.limit := by
  cases u with
  | push notice => exact Controller.limit_push q notice
  | drain => rfl

/-- The limit is that of the queue at the begin. -/
theorem limit_run (q : Queue) (uses : List Use) : (q.run uses).limit = q.limit := by
  induction uses generalizing q with
  | nil => rfl
  | cons u uses ih => rw [run_cons, ih, limit_use]

/-- No use makes more notices wait than there is room for. -/
theorem IsBounded.use (h : q.IsBounded) (u : Use) : (q.use u).IsBounded := by
  cases u with
  | push notice => exact h.push notice
  | drain => exact isBounded_emptied q

/-- So at no time do more wait than there is room for. -/
theorem IsBounded.run (h : q.IsBounded) (uses : List Use) : (q.run uses).IsBounded := by
  induction uses generalizing q with
  | nil => exact h
  | cons u uses ih => exact ih (h.use u)

theorem isBounded_ofLimit (limit : Nat) : (ofLimit limit).IsBounded :=
  Nat.zero_le limit

/-! ## The recent notices of each round -/

/-- What waits stays the recent part of a round when the round goes on. -/
theorem isRecent_push {round : List Notice} (h : IsRecent q.limit round q.waiting)
    (notice : Notice) : IsRecent q.limit (round ++ [notice]) (q.push notice).waiting := by
  have hbound : q.IsBounded := by
    unfold IsBounded
    rw [h.length]
    exact Nat.min_le_left _ _
  refine ⟨?_, ?_⟩
  · obtain ⟨older, holder⟩ := h.suffix
    refine ⟨older ++ q.overflow notice, ?_⟩
    rw [List.append_assoc, overflow_append_waiting_push hbound, ← List.append_assoc, holder]
  · rw [length_waiting_push hbound, h.length, List.length_append, List.length_singleton]
    omega

/-- A push at the begin belongs to the first round. -/
theorem rounds_push (notice : Notice) (uses : List Use) :
    rounds (.push notice :: uses) = (rounds uses).modifyHead fun round => notice :: round := by
  unfold rounds
  rw [List.splitOnP_cons_eq_if_modifyHead, if_neg (by simp [Use.isDrain])]
  cases uses.splitOnP Use.isDrain <;> rfl

/-- A drain at the begin ends a round without a notice. -/
theorem rounds_drain (uses : List Use) : rounds (.drain :: uses) = [] :: rounds uses := by
  unfold rounds
  rw [List.splitOnP_cons_eq_if_modifyHead, if_pos (by rfl)]
  rfl

theorem modifyHead_append_nil (rounds : List (List Notice)) :
    (rounds.modifyHead fun round => [] ++ round) = rounds := by
  cases rounds <;> rfl

/-- From a queue that holds the recent notices of a round, the run returns, and leaves behind, the
recent notices of this round prolonged and of the rounds after it. -/
theorem forall₂_isRecent_from {begun : List Notice} (h : IsRecent q.limit begun q.waiting)
    (uses : List Use) :
    List.Forall₂ (IsRecent q.limit) ((rounds uses).modifyHead fun round => begun ++ round)
      (q.drains uses ++ [(q.run uses).waiting]) := by
  -- the round that is open was begun before, so the induction is over any beginning of it
  induction uses generalizing q begun with
  | nil =>
    have hopen : IsRecent q.limit (begun ++ []) q.waiting := by
      rw [List.append_nil]
      exact h
    exact .cons hopen .nil
  | cons u uses ih =>
    cases u with
    | push notice =>
      have hbegun : IsRecent (q.push notice).limit (begun ++ [notice]) (q.push notice).waiting := by
        rw [Controller.limit_push]
        exact isRecent_push h notice
      have hrest := ih hbegun
      rw [Controller.limit_push] at hrest
      have hrounds : ((rounds (.push notice :: uses)).modifyHead fun round => begun ++ round) =
          (rounds uses).modifyHead fun round => (begun ++ [notice]) ++ round := by
        rw [rounds_push, List.modifyHead_modifyHead]
        congr 1
        funext round
        simp
      rw [hrounds]
      exact hrest
    | drain =>
      have hnew : IsRecent q.emptied.limit [] q.emptied.waiting := isRecent_nil q.limit
      have hrest := ih hnew
      rw [modifyHead_append_nil] at hrest
      have hended : IsRecent q.limit (begun ++ []) q.waiting := by
        rw [List.append_nil]
        exact h
      rw [rounds_drain]
      exact .cons hended hrest

/-- **Each drain returns the recent notices of its round**, and those of the open round wait. -/
theorem forall₂_isRecent (limit : Nat) (uses : List Use) :
    List.Forall₂ (IsRecent limit) (rounds uses)
      ((ofLimit limit).drains uses ++ [((ofLimit limit).run uses).waiting]) := by
  have h := forall₂_isRecent_from (q := ofLimit limit) (isRecent_nil limit) uses
  rw [modifyHead_append_nil] at h
  exact h

/-! ## The account of what was pushed -/

/-- The notices that a use drops for want of room. -/
def lostBy (q : Queue) : Use → List Notice
  | .push notice => q.overflow notice
  | .drain => []

/-- The notices that a run drops for want of room. -/
def lost (q : Queue) : List Use → List Notice
  | [] => []
  | u :: uses => q.lostBy u ++ (q.use u).lost uses

/-- The balance of a use: what goes out and what waits afterwards are what waited and what was
pushed, in this order. -/
theorem lostBy_append (h : q.IsBounded) (u : Use) :
    q.lostBy u ++ ((q.returned u).flatten ++ (q.use u).waiting) = q.waiting ++ u.pushed := by
  cases u with
  | push notice => exact overflow_append_waiting_push h notice
  | drain =>
    show [] ++ ([q.waiting].flatten ++ []) = q.waiting ++ []
    simp

/-- Nothing is returned, or waits, twice or out of order. -/
theorem drains_append_waiting_sublist (h : q.IsBounded) (uses : List Use) :
    ((q.drains uses).flatten ++ (q.run uses).waiting).Sublist (q.waiting ++ pushes uses) := by
  induction uses generalizing q with
  | nil => simp [drains, pushes]
  | cons u uses ih =>
    have hnow : ((q.returned u).flatten ++ (q.use u).waiting).Sublist (q.waiting ++ u.pushed) := by
      rw [← lostBy_append h u]
      exact List.sublist_append_right _ _
    have hrest := ih (h.use u)
    calc ((q.drains (u :: uses)).flatten ++ (q.run (u :: uses)).waiting)
        = (q.returned u).flatten ++
            (((q.use u).drains uses).flatten ++ ((q.use u).run uses).waiting) := by
          rw [drains, List.flatten_append, List.append_assoc]
          rfl
      _ <+ (q.returned u).flatten ++ ((q.use u).waiting ++ pushes uses) := hrest.append_left _
      _ = ((q.returned u).flatten ++ (q.use u).waiting) ++ pushes uses :=
          (List.append_assoc ..).symm
      _ <+ (q.waiting ++ u.pushed) ++ pushes uses := hnow.append_right _
      _ = q.waiting ++ pushes (u :: uses) := List.append_assoc ..

/-- The balance of a run, in numbers. -/
theorem length_lost_add (h : q.IsBounded) (uses : List Use) :
    (q.lost uses).length + (q.drains uses).flatten.length + (q.run uses).waiting.length =
      q.waiting.length + (pushes uses).length := by
  induction uses generalizing q with
  | nil => simp [lost, drains, pushes]
  | cons u uses ih =>
    have hnow := congrArg List.length (lostBy_append h u)
    have hrest := ih (h.use u)
    have hpushes : pushes (u :: uses) = u.pushed ++ pushes uses := rfl
    rw [lost, drains, run_cons, hpushes]
    simp only [List.flatten_append, List.length_append] at hnow hrest ⊢
    omega

/-- The counter goes up by the number of notices that a use drops, modulo its 64 bits. -/
theorem dropped_use (q : Queue) (u : Use) :
    (q.use u).dropped = q.dropped + UInt64.ofNat (q.lostBy u).length := by
  cases u with
  | push notice => exact dropped_push q notice
  | drain => exact (UInt64.add_zero _).symm

/-- The counter of a queue counts what a run drops, in 64 bits. -/
theorem dropped_run (q : Queue) (uses : List Use) :
    (q.run uses).dropped = q.dropped + UInt64.ofNat (q.lost uses).length := by
  induction uses generalizing q with
  | nil => exact (UInt64.add_zero _).symm
  | cons u uses ih =>
    rw [run_cons, ih, dropped_use, lost, List.length_append, UInt64.ofNat_add, UInt64.add_assoc]

/-- A full queue drops one notice for one more. -/
theorem excess?_of_full (h : q.IsBounded) (full : q.limit ≤ q.waiting.length) :
    q.excess? = some 1 := by
  have hbound : q.waiting.length ≤ q.limit := h
  rw [excess?_eq_some_iff]
  omega

/-! ## Whole runs -/

/-- What a run makes of a queue that was never used. -/
structure KeepsAccount (limit : Nat) (uses : List Use) : Prop where
  /-- Each drain returned the recent notices of its round, and those of the open round wait. -/
  recent : List.Forall₂ (IsRecent limit) (rounds uses)
    ((ofLimit limit).drains uses ++ [((ofLimit limit).run uses).waiting])
  /-- A drain leaves nothing behind. -/
  emptied : ((ofLimit limit).run (uses ++ [.drain])).waiting = []
  /-- What was returned and what waits was pushed, once and in this order. -/
  inOrder : ((ofLimit limit).drains uses).flatten ++ ((ofLimit limit).run uses).waiting <+
    pushes uses
  /-- The counter is the number of all other pushed notices, in 64 bits. -/
  counted : ((ofLimit limit).run uses).dropped.toNat =
    ((pushes uses).length - ((ofLimit limit).drains uses).flatten.length -
      ((ofLimit limit).run uses).waiting.length) % 2 ^ 64
  /-- With room for one more notice nothing is dropped and no difference is taken, -/
  room : ∀ notice, ((ofLimit limit).run uses).waiting.length < limit →
    (((ofLimit limit).run uses).push notice).waiting =
        ((ofLimit limit).run uses).waiting ++ [notice] ∧
      (((ofLimit limit).run uses).push notice).dropped = ((ofLimit limit).run uses).dropped
  /-- and without, the difference that tells how many notices to drop does not fall below zero. It
  is one. -/
  full : limit ≤ ((ofLimit limit).run uses).waiting.length →
    ((ofLimit limit).run uses).excess? = some 1

/-- **A queue keeps account of its notices** whatever its limit and however it is used. -/
theorem keeps_account (limit : Nat) (uses : List Use) : KeepsAccount limit uses := by
  have hfresh := isBounded_ofLimit limit
  have hbound := hfresh.run uses
  have hlimit : ((ofLimit limit).run uses).limit = limit := limit_run _ uses
  refine ⟨forall₂_isRecent limit uses, ?_, drains_append_waiting_sublist hfresh uses, ?_, ?_, ?_⟩
  · rw [run_append]
    rfl
  · have hbalance := length_lost_add hfresh uses
    have hnone : (ofLimit limit).waiting.length = 0 := rfl
    rw [dropped_run, show (ofLimit limit).dropped = 0 from rfl, UInt64.zero_add,
      UInt64.toNat_ofNat']
    congr 1
    omega
  · intro notice hroom
    rw [push_of_room (hlimit.symm ▸ hroom) notice]
    exact ⟨rfl, rfl⟩
  · intro hfull
    exact excess?_of_full hbound (hlimit.symm ▸ hfull)

/-- With a limit of two the third notice of a round drops the first one. -/
example (n₁ n₂ n₃ n₄ : Notice) :
    (ofLimit 2).drains [.push n₁, .push n₂, .push n₃, .drain, .push n₄] = [[n₂, n₃]] := rfl

end Queue

end VideoOutput.Connector
