import VideoOutput.Connector.Event
import VideoOutput.Log

/-!
# The event queue

Notices wait in a bounded queue until they are taken out all at once. The producer side pushes one
notice at a time; the controller drains the queue at each dispatch. When the queue is full the oldest
notices make room for the new one, and a counter of 64 bits counts them. A queue without room drops
every notice that is pushed to it. So the queue always holds the most recent notices in the order of
their arrival, which `Proofs.Recent` says of whole histories of pushes and drains.

How many notices make room is a difference, `waiting + 1 - limit`. Below the limit this difference is
no natural number in general, and it is not taken there: `push` asks first whether the queue is full.
`excess?` is the difference with its failure visible, and `excess` is its value for a queue that is
full: it asks for the proof, so it cannot be taken anywhere else. As the queue never holds more than
`limit` notices, the value is always one.

The lock around the waiting notices is left out: pushes and drains are whole steps here, and a
history is any sequence of them.
-/

namespace VideoOutput.Connector

/-- What tells one queue from another. -/
abbrev QueueId := Nat

/-- Notices waiting in order of arrival. -/
structure Queue where
  /-- The most notices that wait. -/
  limit : Nat
  waiting : List Notice := []
  /-- The number of notices dropped so far. -/
  dropped : UInt64 := 0
  deriving DecidableEq

namespace Queue

/-- The number of notices that make room for one more, if the difference does not fall below
zero. -/
def excess? (queue : Queue) : Option Nat :=
  if queue.limit ≤ queue.waiting.length + 1 then some (queue.waiting.length + 1 - queue.limit)
  else none

theorem excess?_eq_some_iff (queue : Queue) (count : Nat) :
    queue.excess? = some count ↔ queue.limit + count = queue.waiting.length + 1 := by
  unfold excess?
  split
  next h => simp only [Option.some.injEq]; omega
  next h => simp only [reduceCtorEq, false_iff]; omega

theorem isSome_excess? {queue : Queue} (full : queue.limit ≤ queue.waiting.length) :
    queue.excess?.isSome := by
  rw [excess?, if_pos (Nat.le_succ_of_le full)]
  rfl

/-- The number of notices that a full queue drops to make room for one more. -/
def excess (queue : Queue) (full : queue.limit ≤ queue.waiting.length) : Nat :=
  queue.excess?.get (isSome_excess? full)

/-- The difference is exact. -/
theorem limit_add_excess (queue : Queue) (full : queue.limit ≤ queue.waiting.length) :
    queue.limit + queue.excess full = queue.waiting.length + 1 :=
  (excess?_eq_some_iff queue _).mp (Option.some_get _).symm

/-- Append a notice. A full queue first drops the oldest ones beyond the limit. -/
def push (queue : Queue) (notice : Notice) : Queue :=
  if queue.limit = 0 then { queue with dropped := queue.dropped + 1 }
  else if full : queue.limit ≤ queue.waiting.length then
    { queue with
      waiting := queue.waiting.drop (queue.excess full) ++ [notice]
      dropped := queue.dropped + UInt64.ofNat (queue.excess full) }
  else { queue with waiting := queue.waiting ++ [notice] }

/-- The entry for a push that drops notices. A queue without room drops in silence. -/
def pushLog (queue : Queue) : List Log.Entry :=
  if queue.limit = 0 then []
  else if full : queue.limit ≤ queue.waiting.length then
    [⟨.warn, "display event queue full, dropping oldest events",
      [("drop_count", .number (queue.excess full))]⟩]
  else []

/-- The queue after everything was taken out of it. -/
def emptied (queue : Queue) : Queue :=
  { queue with waiting := [] }

end Queue

end VideoOutput.Connector
