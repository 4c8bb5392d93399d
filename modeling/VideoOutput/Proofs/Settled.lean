import VideoOutput.Proofs.Schedule

/-!
# What a dispatch comes to

A dispatch takes the waiting notices one after the other: each is judged, applied to its connector
and passed on to a callback before the next one is looked at (`dispatch_eq_foldl`). What it comes to
can be said without going through the notices: of each field of an HDMI connector the last notice
about the connector decides that tells something of the field (`Connector.settled`).

A notice that goes in front of others only matters where these tell nothing (`settled_cons`), so by
induction the connector is settled by all that wait (`applyAll_eq_settled`). `isSettled` puts this
together for every controller and every queue.

The fields do not follow the same notices. The state is told by a display that came or went, the
protection by its own events and by a display that went; what the display accepts is never told,
only forgotten. That is why one last notice for the connector would not do, and each field has its
own. The calls, in contrast, are all made: a callback hears of every delivered notice of its class,
also of one that a later notice overrules, in the order of the queue.
-/

namespace VideoOutput

open Connector (Notice)

namespace Connector

/-- What an event tells of the state of the connector. -/
def Event.state? : Event → Option State
  | .connected => some .connected
  | .disconnected => some .ready
  | .sensed _ => none
  | .hdcp _ => none

/-- What an event tells of content protection. A display that goes takes it along. -/
def Event.hdcp? : Event → Option Hdcp
  | .connected => none
  | .disconnected => some .unpowered
  | .sensed _ => none
  | .hdcp status => some status

/-- What the last of the notices about the HDMI connector with a number tells, of those that tell
something. -/
def lastTold {α : Type} (tell : Event → Option α) (index : UInt8) (notices : List Notice) :
    Option α :=
  ((notices.filter fun n => n.index == index).filterMap fun n => tell n.event).getLast?

/-- The connector after a list of notices, of which only the last ones count. -/
def settled (x : Connector) (notices : List Notice) : Connector :=
  match x.kind with
  | .composite => x
  | .hdmi =>
    { x with
      state := (lastTold Event.state? x.index notices).getD x.state
      hdcp := (lastTold Event.hdcp? x.index notices).getD x.hdcp
      accepted :=
        if notices.any fun n => n.index == x.index && n.event.isHotplug then none
        else x.accepted }

variable {x : Connector}

/-- A notice in front decides only where none behind it does. -/
theorem lastTold_cons {α : Type} (tell : Event → Option α) (index : UInt8) (n : Notice)
    (notices : List Notice) :
    lastTold tell index (n :: notices) =
      if n.index = index then (lastTold tell index notices).or (tell n.event)
      else lastTold tell index notices := by
  unfold lastTold
  by_cases hindex : n.index = index
  · rw [List.filter_cons_of_pos (by simpa using hindex), if_pos hindex]
    cases htell : tell n.event with
    | none =>
      rw [List.filterMap_cons_none (f := fun n : Notice => tell n.event) htell, Option.or_none]
    | some told =>
      rw [List.filterMap_cons_some (f := fun n : Notice => tell n.event) htell, List.getLast?_cons]
      cases (List.filterMap _ _).getLast? <;> rfl
  · rw [List.filter_cons_of_neg (by simpa using hindex), if_neg hindex]

theorem notified_of_composite (hk : x.kind = .composite) (n : Notice) : x.notified n = x := by
  unfold notified Notice.concerns
  rw [hk]
  rfl

/-- Of a notice in front of others only that counts of which the others tell nothing. -/
theorem settled_cons (x : Connector) (n : Notice) (notices : List Notice) :
    (x.notified n).settled notices = x.settled (n :: notices) := by
  cases hk : x.kind with
  | composite =>
    rw [notified_of_composite hk]
    unfold settled
    rw [hk]
  | hdmi =>
    by_cases hindex : n.index = x.index
    · have happlied : x.notified n = x.apply n.event := by
        unfold notified
        rw [concerns_of_hdmi hk, if_pos (by simpa using hindex)]
      rw [happlied]
      cases hevent : n.event <;>
        simp [settled, apply, hk, lastTold_cons, hindex, hevent, Event.state?, Event.hdcp?,
          Event.isHotplug]
    · have hother : x.notified n = x := by
        unfold notified
        rw [concerns_of_hdmi hk, if_neg (by simpa using hindex)]
      rw [hother]
      simp [settled, hk, lastTold_cons, hindex]

/-- **The last notices decide** what a list of notices makes of a connector. -/
theorem applyAll_eq_settled (x : Connector) (notices : List Notice) :
    x.applyAll notices = x.settled notices := by
  induction notices generalizing x with
  | nil =>
    unfold settled
    split <;> rfl
  | cons n notices ih => rw [applyAll_cons, ih, settled_cons]

/-- Of content protection the later one of a report and a display that goes decides. -/
example : lastTold Event.hdcp? 0
    [⟨0, .hdcp .authenticated⟩, ⟨0, .disconnected⟩, ⟨1, .hdcp .disabled⟩, ⟨0, .connected⟩] =
      some .unpowered := rfl

end Connector

namespace Controller

variable {c : Controller}

/-! ## One notice after the other -/

/-- A notice of a dispatch: if there is a connector for it, it is applied to it, counted, and passed
on to the callback of its class. -/
def receive (s : Controller × Dispatched) (n : Notice) : Controller × Dispatched :=
  if s.1.delivers n then
    (s.1.applyNotice n, ⟨s.2.delivered + 1, s.2.calls ++ (s.1.call? n).toList⟩)
  else s

/-- After some notices the state and the report are those of the deliverable ones among them. -/
theorem foldl_receive (c : Controller) (done : Dispatched) (notices : List Notice) :
    notices.foldl receive (c, done) =
      ((notices.filter c.delivers).foldl applyNotice c,
        ⟨done.delivered + (notices.filter c.delivers).length,
          done.calls ++ (notices.filter c.delivers).filterMap c.call?⟩) := by
  induction notices generalizing c done with
  | nil => simp
  | cons n notices ih =>
    rw [List.foldl_cons]
    cases hn : c.delivers n with
    | false =>
      have hskipped : receive (c, done) n = (c, done) := by simp [receive, hn]
      rw [List.filter_cons_of_neg (by simp [hn]), hskipped]
      exact ih c done
    | true =>
      -- the notice changes neither what is delivered after it nor who is called
      have hdelivers : (c.applyNotice n).delivers = c.delivers :=
        funext (delivers_applied c [n])
      have hcalls : (c.applyNotice n).call? = c.call? := funext (call?_applied c [n])
      have htaken : receive (c, done) n =
          (c.applyNotice n, ⟨done.delivered + 1, done.calls ++ (c.call? n).toList⟩) := by
        simp [receive, hn]
      rw [htaken, ih, hdelivers, hcalls, List.filter_cons_of_pos hn, List.foldl_cons,
        List.length_cons]
      cases hcall : c.call? n with
      | none =>
        rw [List.filterMap_cons_none hcall]
        simp [Nat.add_assoc, Nat.add_comm]
      | some call =>
        rw [List.filterMap_cons_some hcall]
        simp [Nat.add_assoc, Nat.add_comm]

/-- **A dispatch takes one notice after the other.** -/
theorem dispatch_eq_foldl (c : Controller) :
    c.dispatch = c.queue.waiting.foldl receive (c.emptyQueue, ⟨0, []⟩) := by
  rw [foldl_receive, Nat.zero_add, List.nil_append]
  rfl

/-! ## What it comes to -/

/-- There is an HDMI connector with this number. -/
def hasHdmiAt (c : Controller) (index : UInt8) : Bool :=
  c.connectors.any fun x => x.kind == .hdmi && x.index == index

/-- An active controller delivers the notices whose index an HDMI connector has. -/
theorem deliverable_of_isActive (hact : c.isActive = true) :
    c.deliverable = c.queue.waiting.filter fun n => c.hasHdmiAt n.index := by
  unfold deliverable delivers
  rw [hact]
  rfl

/-- What a dispatch comes to. -/
structure IsSettled (c : Controller) : Prop where
  /-- It takes one notice after the other. -/
  oneByOne : c.dispatch = c.queue.waiting.foldl receive (c.emptyQueue, ⟨0, []⟩)
  /-- The queue is empty afterwards. -/
  emptied : c.dispatch.1.queue = { c.queue with waiting := [] }
  /-- While the controller is inactive nothing else happens. -/
  idle : c.isActive = false →
    c.dispatch = ({ c with queue := { c.queue with waiting := [] } }, ⟨0, []⟩)
  /-- Otherwise the connectors are settled by the notices that waited, and nothing else changes. -/
  settled : c.isActive = true → c.dispatch.1 =
    { c with
      connectors := c.connectors.map fun x => x.settled c.queue.waiting
      queue := { c.queue with waiting := [] } }
  /-- The notices are counted whose number is that of an HDMI connector, -/
  delivered : c.isActive = true →
    c.dispatch.2.delivered = c.queue.waiting.countP fun n => c.hasHdmiAt n.index
  /-- and these are what the callbacks of their classes are called for, in the order of the
  queue. -/
  calls : c.isActive = true → c.dispatch.2.calls =
    (c.queue.waiting.filter fun n => c.hasHdmiAt n.index).filterMap fun n =>
      (c.callback? n.event.eventClass).map fun id =>
        ⟨id, ⟨.hdmi, n.index, c.generation⟩, n.event⟩

/-- **A dispatch in one sentence**, for every controller and whatever waits in its queue. -/
theorem dispatch_isSettled (c : Controller) : c.IsSettled := by
  refine ⟨dispatch_eq_foldl c, queue_dispatch c, dispatch_of_inactive, fun hact => ?_,
    fun hact => ?_, fun hact => ?_⟩
  · rw [dispatch_eq hact]
    simp only [Connector.applyAll_eq_settled]
    rfl
  · rw [List.countP_eq_length_filter, ← deliverable_of_isActive hact]
    rfl
  · rw [← deliverable_of_isActive hact]
    rfl

end Controller

end VideoOutput
