import VideoOutput.Proofs.Effect

/-!
# What waiting notices will do

Notices wait until the next dispatch. `Connector.applyAll` is what a list of notices makes of one
connector, by those that are about it, and `dispatch_eq` says that a dispatch does this to every
connector and nothing else: connectors do not get in each other's way, and the notices that a
dispatch discards would not have changed any.

The state of a connector follows the notices that a display came or went (`state_applyAll`), and
these are also the ones that make it forget what its display accepts (`accepted_applyAll`). Both are
stated as functions of the state and the notices alone. An invariant of runs can then speak of the
state that a connector will have once what waits is dispatched, and need not say when that happens.

A dispatch discards the notices whose index no HDMI connector has, and `applyAll_filter` shows that
no connector can tell the difference. While the controller is inactive it discards them all: the
queue is drained and every connector stays as it is (`dispatch_of_inactive`).
-/

namespace VideoOutput

namespace Connector

/-- The event says that a display came or went. -/
def Event.isHotplug : Event → Bool
  | .connected | .disconnected => true
  | _ => false

/-- The state after an event. -/
def State.after (state : State) : Event → State
  | .connected => .connected
  | .disconnected => .ready
  | _ => state

/-- The state of the HDMI connector with a number after those notices that are about it. -/
def State.afterAll (state : State) (index : UInt8) (notices : List Notice) : State :=
  (notices.filter fun n => n.index == index).foldl (fun state n => state.after n.event) state

/-- The notice is about the connector. -/
def Notice.concerns (notice : Notice) (x : Connector) : Bool :=
  x.kind == .hdmi && x.index == notice.index

/-- The connector after a notice, which may be about another one. -/
def notified (x : Connector) (notice : Notice) : Connector :=
  if notice.concerns x then x.apply notice.event else x

/-- The connector after a list of notices. -/
def applyAll (x : Connector) (notices : List Notice) : Connector :=
  notices.foldl notified x

variable {x : Connector} {notices : List Notice}

@[simp] theorem applyAll_nil (x : Connector) : x.applyAll [] = x := rfl

@[simp] theorem applyAll_cons (x : Connector) (n : Notice) (notices : List Notice) :
    x.applyAll (n :: notices) = (x.notified n).applyAll notices := rfl

/-- Notices take effect in the order in which they wait. -/
theorem applyAll_append (x : Connector) (first second : List Notice) :
    x.applyAll (first ++ second) = (x.applyAll first).applyAll second :=
  List.foldl_append

/-! ## Places -/

/-- A notice leaves the connector in its place, so what concerns it after the notice is what
concerned it before. -/
theorem place_notified (x : Connector) (n : Notice) :
    Controller.place (x.notified n) = Controller.place x := by
  unfold notified
  split
  next => exact Controller.place_apply x n.event
  next => rfl

theorem place_applyAll (x : Connector) (notices : List Notice) :
    Controller.place (x.applyAll notices) = Controller.place x := by
  induction notices generalizing x with
  | nil => rfl
  | cons n notices ih => rw [applyAll_cons, ih, place_notified]

theorem kind_notified (x : Connector) (n : Notice) : (x.notified n).kind = x.kind :=
  congrArg Prod.fst (place_notified x n)

theorem index_notified (x : Connector) (n : Notice) : (x.notified n).index = x.index :=
  congrArg Prod.snd (place_notified x n)

/-- Whether a notice concerns a connector does not depend on those before it. -/
theorem concerns_notified (x : Connector) (n m : Notice) :
    m.concerns (x.notified n) = m.concerns x := by
  unfold Notice.concerns
  rw [kind_notified, index_notified]

/-- Notices about other connectors may be left out. -/
theorem applyAll_filter {p : Notice → Bool} (h : ∀ n, n.concerns x = true → p n = true)
    (notices : List Notice) : x.applyAll (notices.filter p) = x.applyAll notices := by
  induction notices generalizing x with
  | nil => rfl
  | cons n notices ih =>
    have hrest : ∀ m, m.concerns (x.notified n) = true → p m = true := by
      intro m hm
      rw [concerns_notified] at hm
      exact h m hm
    cases hp : p n with
    | true => rw [List.filter_cons_of_pos hp, applyAll_cons, applyAll_cons, ih hrest]
    | false =>
      have hother : x.notified n = x := by
        unfold notified
        rw [if_neg]
        intro hn
        exact absurd ((h n hn).symm.trans hp) (by simp)
      have hskip : ¬ p n = true := by
        rw [hp]
        exact Bool.false_ne_true
      rw [List.filter_cons_of_neg hskip, applyAll_cons, hother, ih h]

/-! ## The state -/

theorem State.afterAll_nil (state : State) (index : UInt8) : state.afterAll index [] = state := rfl

/-- The first notice counts only if it carries the index in question. -/
theorem State.afterAll_cons (state : State) (index : UInt8) (n : Notice) (notices : List Notice) :
    state.afterAll index (n :: notices) =
      (if n.index == index then state.after n.event else state).afterAll index notices := by
  unfold afterAll
  rw [List.filter_cons]
  split <;> rfl

/-- The state after two lists is the state after the second one, begun at the state after the first.
-/
theorem State.afterAll_append (state : State) (index : UInt8) (first second : List Notice) :
    state.afterAll index (first ++ second) =
      (state.afterAll index first).afterAll index second := by
  unfold afterAll
  rw [List.filter_append, List.foldl_append]

/-- All notices are about HDMI connectors, so only the index decides between these. -/
theorem concerns_of_hdmi (hk : x.kind = .hdmi) (n : Notice) :
    n.concerns x = (n.index == x.index) := by
  unfold Notice.concerns
  rw [hk]
  exact Bool.beq_comm

/-- An HDMI connector has after one of its notices the state that the notice says. -/
theorem state_notified (hk : x.kind = .hdmi) (n : Notice) :
    (x.notified n).state = if n.index == x.index then x.state.after n.event else x.state := by
  unfold notified
  rw [concerns_of_hdmi hk]
  split
  next => cases n.event <;> rfl
  next => rfl

/-- Its state is a fold over the notices with its index, and depends on nothing else of it. -/
theorem state_applyAll (hk : x.kind = .hdmi) (notices : List Notice) :
    (x.applyAll notices).state = x.state.afterAll x.index notices := by
  induction notices generalizing x with
  | nil => rfl
  | cons n notices ih =>
    have hk' : (x.notified n).kind = .hdmi := (kind_notified x n).trans hk
    rw [applyAll_cons, ih hk', state_notified hk, index_notified, State.afterAll_cons]

/-! ## The accepted resolutions -/

/-- A notice that a display came or went makes the connector forget what its display accepts; the
others do not. -/
theorem accepted_notified (hk : x.kind = .hdmi) (n : Notice) :
    (x.notified n).accepted =
      if n.index == x.index && n.event.isHotplug then none else x.accepted := by
  unfold notified
  rw [concerns_of_hdmi hk]
  cases n.index == x.index with
  | true => cases n.event <;> rfl
  | false => rfl

/-- A connector forgets what its display accepts when it is told that one came or went, and at no
other notice. -/
theorem accepted_applyAll (hk : x.kind = .hdmi) (notices : List Notice) :
    (x.applyAll notices).accepted =
      if notices.any fun n => n.index == x.index && n.event.isHotplug then none
      else x.accepted := by
  induction notices generalizing x with
  | nil => rfl
  | cons n notices ih =>
    have hk' : (x.notified n).kind = .hdmi := (kind_notified x n).trans hk
    rw [applyAll_cons, ih hk', index_notified, accepted_notified hk, List.any_cons]
    cases n.index == x.index && n.event.isHotplug <;> simp

end Connector

namespace Controller

variable {c : Controller}

/-- A notice changes the connectors it is about and nothing else. -/
theorem applyNotice_eq (c : Controller) (notice : Connector.Notice) :
    c.applyNotice notice =
      { c with connectors := c.connectors.map fun x => x.notified notice } := rfl

/-- Applying notices one at a time is the same as applying them to each connector on its own. -/
theorem foldl_applyNotice (c : Controller) (notices : List Connector.Notice) :
    notices.foldl applyNotice c =
      { c with connectors := c.connectors.map fun x => x.applyAll notices } := by
  induction notices generalizing c with
  | nil => simp
  | cons n notices ih =>
    rw [List.foldl_cons, ih, applyNotice_eq, List.map_map]
    rfl

/-- What is about an existing connector is delivered. -/
theorem delivers_of_concerns (hact : c.isActive = true) {x : Connector} (hx : x ∈ c.connectors)
    {n : Connector.Notice} (hn : n.concerns x = true) : c.delivers n = true := by
  unfold delivers
  rw [hact, Bool.true_and]
  exact List.any_eq_true.mpr ⟨x, hx, hn⟩

/-- **A dispatch** applies to every connector the notices that waited, and empties the queue. -/
theorem dispatch_eq (hact : c.isActive = true) :
    c.dispatch.1 =
      { c with
        connectors := c.connectors.map fun x => x.applyAll c.queue.waiting
        queue := c.queue.emptied } := by
  have hconnectors : c.connectors.map (fun x => x.applyAll c.deliverable) =
      c.connectors.map fun x => x.applyAll c.queue.waiting := by
    apply List.map_congr_left
    intro x hx
    exact Connector.applyAll_filter (fun n hn => delivers_of_concerns hact hx hn) _
  calc c.dispatch.1
      = c.deliverable.foldl applyNotice c.emptyQueue := rfl
    _ = { c.emptyQueue with connectors := c.connectors.map fun x => x.applyAll c.deliverable } :=
        foldl_applyNotice c.emptyQueue c.deliverable
    _ = _ := by rw [hconnectors]; rfl

/-- While the controller is inactive a dispatch only empties the queue. -/
theorem dispatch_of_inactive (hidle : c.isActive = false) :
    c.dispatch = (c.emptyQueue, ⟨0, []⟩) := by
  have hnone : c.deliverable = [] := by
    unfold deliverable delivers
    rw [hidle]
    simp
  unfold dispatch
  rw [hnone]
  rfl

end Controller

end VideoOutput
