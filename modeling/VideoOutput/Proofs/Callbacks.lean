import Mathlib.Algebra.GroupWithZero.Nat
import VideoOutput.Proofs.Cycle
import VideoOutput.Proofs.Ledger

/-!
# What callbacks are told

A callback is registered for one class of events until the next registration for the class or the
next stop. While it is, each dispatch calls it for the delivered notices of its class and for
nothing else (`calls_of_class`), and no other request touches the registration (`Effect.callback?`).
So the calls for the class over these steps are the notices of the class that they deliver
(`Hears.calls_eq`). A callback that is registered nowhere is never called (`calls_of_isSilent`).

Calls and numbers are read off the answers that requests are given (`reported`), not off the
controller.

Three properties of a state carry the induction over a run. `Hears` says that a callback is
registered for a class on an active controller, together with the number of starts that its handles
will carry. `IsSilent` says that it is registered for no class, `OnlyFor` that it is for one class
at most. Each is kept by a step under the condition on the step that its name suggests, and then by
every run of such steps. A run that registers a callback, hears it and takes it away again is cut at
these points and the parts are put together (`Hears.calls_filter_append`).
-/

namespace VideoOutput

open Connector (Notice EventClass)

variable {σ : Type} [Firmware σ]

namespace Controller

variable {c c' : Controller} {fw fw' : σ}

/-! ## One dispatch -/

/-- Every call of a dispatch is about a notice that it delivers, and goes to the callback that is
registered for the class. -/
theorem exists_of_mem_calls {call : Call} (h : call ∈ c.dispatch.2.calls) :
    c.callback? call.event.eventClass = some call.callback ∧
      ∃ n ∈ c.deliverable, call.handle = c.noticeHandle n ∧ call.event = n.event := by
  obtain ⟨n, hn, hcall⟩ := List.mem_filterMap.mp h
  obtain ⟨id, hid, rfl⟩ := Option.map_eq_some_iff.mp hcall
  exact ⟨hid, n, hn, rfl, rfl⟩

/-- The calls of a dispatch for a class with a callback are the delivered notices of the class. -/
theorem calls_of_class {eventClass : EventClass} {id : CallbackId}
    (h : c.callback? eventClass = some id) :
    (c.dispatch.2.calls.filter fun call => call.event.eventClass == eventClass) =
      (c.deliverable.filter fun n => n.event.eventClass == eventClass).map fun n =>
        ⟨id, c.noticeHandle n, n.event⟩ := by
  show ((c.deliverable.filterMap c.call?).filter _) = _
  induction c.deliverable with
  | nil => rfl
  | cons n notices ih =>
    by_cases hn : n.event.eventClass = eventClass
    · have hcall : c.call? n = some ⟨id, c.noticeHandle n, n.event⟩ := by
        unfold call?
        rw [hn, h]
        rfl
      rw [List.filterMap_cons_some hcall, List.filter_cons_of_pos (by simp [hn]), ih,
        List.filter_cons_of_pos (by simp [hn]), List.map_cons]
    · -- a notice of the other class may be passed on too, but not as a call of this class
      rw [List.filter_cons_of_neg (by simp [hn]), ← ih]
      cases hcall : c.call? n with
      | none => rw [List.filterMap_cons_none hcall]
      | some call =>
        obtain ⟨id', -, rfl⟩ := Option.map_eq_some_iff.mp hcall
        rw [List.filterMap_cons_some hcall, List.filter_cons_of_neg (by simp [hn])]

/-- Only a dispatch is answered with what a dispatch did. -/
theorem eq_dispatch_of_dispatched {r : Request} {d : Dispatched}
    (h : (c.perform fw r).result = .ok (.dispatched d)) : r = .dispatch := by
  cases r with
  | dispatch => rfl
  | start | stop | handle | register =>
    obtain ⟨_, _, hwrap⟩ := exists_of_map_eq_ok h
    exact absurd hwrap (by simp)
  | on name request =>
    cases request with
    | _ =>
      obtain ⟨_, _, hwrap⟩ := exists_of_map_eq_ok h
      exact absurd hwrap (by simp)

/-! ## Registrations -/

theorem callback?_withCallback (c : Controller) (id : CallbackId) (eventClass other : EventClass) :
    (c.withCallback id eventClass).callback? other =
      if other = eventClass then some id else c.callback? other := by
  cases eventClass <;> cases other <;> rfl

/-- A registration lasts until the next one for its class or the next stop. -/
theorem Effect.callback? {r : Request} {answer : Except Error Answer}
    (he : Effect c fw r answer c' fw') (eventClass : EventClass) :
    c'.callback? eventClass = c.callback? eventClass ∨
      (r = .stop ∧ c'.callback? eventClass = none) ∨
      ∃ id, r = .register eventClass id ∧ c'.callback? eventClass = some id := by
  cases he with
  | stopped =>
    refine .inr (.inl ⟨rfl, ?_⟩)
    cases eventClass <;> rfl
  | @registered registered id =>
    rw [callback?_withCallback]
    split
    next hsame => exact .inr (.inr ⟨id, by rw [hsame], rfl⟩)
    next => exact .inl rfl
  | dispatched =>
    exact .inl (dispatch_induction
      (P := fun c' => c'.callback? eventClass = c.callback? eventClass) rfl fun _ _ _ h => h)
  | _ => exact .inl rfl

end Controller

namespace Assembly

variable {a : Assembly σ} {s : Step σ} {steps : List (Step σ)} {eventClass : EventClass}
  {id : CallbackId} {generation : UInt32}

/-! ## What a run reports -/

/-- What the controller answers about a dispatch in a step. -/
def reported (a : Assembly σ) : Step σ → List Controller.Dispatched
  | .request request =>
    match (a.controller.perform a.firmware request).result with
    | .ok (.dispatched d) => [d]
    | _ => []
  | _ => []

/-- What the controller answers about dispatches in a run. -/
def reports (a : Assembly σ) (steps : List (Step σ)) : List Controller.Dispatched :=
  a.collect reported steps

/-- The calls of a run, in order. -/
def calls (a : Assembly σ) (steps : List (Step σ)) : List Controller.Call :=
  (a.reports steps).flatMap Controller.Dispatched.calls

/-- The numbers of delivered notices that the dispatches of a run answer, added up. -/
def deliveredTotal (a : Assembly σ) (steps : List (Step σ)) : Nat :=
  ((a.reports steps).map Controller.Dispatched.delivered).sum

theorem reported_dispatch (a : Assembly σ) :
    a.reported (.request .dispatch) = [a.controller.dispatch.2] := rfl

theorem reported_of_ne (hs : s ≠ .request .dispatch) : a.reported s = [] := by
  cases s with
  | push | drain | firmware => rfl
  | request request =>
    simp only [reported]
    split
    next d hd => exact absurd (congrArg Step.request (Controller.eq_dispatch_of_dispatched hd)) hs
    next => rfl

/-- A run can be cut anywhere, and what its parts report is put together. -/
theorem reports_append (a : Assembly σ) (first second : List (Step σ)) :
    a.reports (first ++ second) = a.reports first ++ (a.run first).reports second :=
  collect_append reported a first second

theorem calls_append (a : Assembly σ) (first second : List (Step σ)) :
    a.calls (first ++ second) = a.calls first ++ (a.run first).calls second := by
  unfold calls
  rw [reports_append, List.flatMap_append]

theorem calls_cons (a : Assembly σ) (s : Step σ) (steps : List (Step σ)) :
    a.calls (s :: steps) =
      (a.reported s).flatMap Controller.Dispatched.calls ++ (a.step s).calls steps :=
  List.flatMap_append

theorem calls_dispatch (a : Assembly σ) :
    a.calls [.request .dispatch] = a.controller.dispatch.2.calls := by
  rw [calls_cons, reported_dispatch]
  simp [calls, reports, collect]

theorem calls_cons_of_ne (hs : s ≠ .request .dispatch) (steps : List (Step σ)) :
    a.calls (s :: steps) = (a.step s).calls steps := by
  rw [calls_cons, reported_of_ne hs]
  rfl

/-- A dispatch at the head of a run calls first, before all that follows. -/
theorem calls_cons_dispatch (a : Assembly σ) (steps : List (Step σ)) :
    a.calls (.request .dispatch :: steps) =
      a.controller.dispatch.2.calls ++ (a.step (.request .dispatch)).calls steps := by
  rw [← calls_dispatch]
  exact calls_append a [.request .dispatch] steps

/-- **The dispatches of a run answer how many notices they delivered**, all together. -/
theorem deliveredTotal_eq (a : Assembly σ) (steps : List (Step σ)) :
    a.deliveredTotal steps = (a.delivered steps).length := by
  induction steps generalizing a with
  | nil => rfl
  | cons s steps ih =>
    have hstep : ((a.reported s).map Controller.Dispatched.delivered).sum =
        (Connector.ofFate .delivered (a.leaves s)).length := by
      by_cases hs : s = .request .dispatch
      · subst hs
        rw [reported_dispatch, ofFate_leaves_dispatch]
        exact Nat.add_zero _
      · rw [reported_of_ne hs, ofFate_leaves_of_ne (fateIn_ne_delivered hs)]
        rfl
    calc a.deliveredTotal (s :: steps)
        = ((a.reported s).map Controller.Dispatched.delivered).sum +
            (a.step s).deliveredTotal steps := by
          unfold deliveredTotal reports
          rw [collect, List.map_append, List.sum_append]
      _ = (a.delivered (s :: steps)).length := by
          rw [hstep, ih, delivered_cons, List.length_append]

/-! ## Registrations over a run -/

/-- The step ends the registration of a callback for a class. -/
def Step.Unregisters (eventClass : EventClass) : Step σ → Prop
  | .request .stop => True
  | .request (.register other _) => other = eventClass
  | _ => False

/-- What is registered for a class changes only by a stop or by another registration. -/
theorem callback?_step (a : Assembly σ) (s : Step σ) (eventClass : EventClass) :
    (a.step s).controller.callback? eventClass = a.controller.callback? eventClass ∨
      (s = .request .stop ∧ (a.step s).controller.callback? eventClass = none) ∨
      ∃ id, s = .request (.register eventClass id) ∧
        (a.step s).controller.callback? eventClass = some id := by
  cases s with
  | push | drain | firmware => exact .inl rfl
  | request request =>
    rcases (Controller.perform_isEffect a.controller a.firmware request).callback? eventClass with
      h | ⟨rfl, h⟩ | ⟨id, rfl, h⟩
    · exact .inl h
    · exact .inr (.inl ⟨rfl, h⟩)
    · exact .inr (.inr ⟨id, rfl, h⟩)

/-- An active controller stays so until it is stopped. -/
theorem isActive_step (h : a.controller.isActive = true) (hs : s ≠ .request .stop) :
    (a.step s).controller.isActive = true := by
  cases s with
  | push | drain | firmware => exact h
  | request request =>
    rcases (Controller.perform_isEffect a.controller a.firmware request).isActive with
      hsame | ⟨-, hon⟩ | ⟨rfl, -⟩
    · exact hsame.trans h
    · exact hon
    · exact absurd rfl hs

/-- The callback is registered for the class, in the cycle with a number. -/
structure Hears (a : Assembly σ) (eventClass : EventClass) (id : CallbackId)
    (generation : UInt32) : Prop where
  active : a.controller.isActive = true
  callback : a.controller.callback? eventClass = some id
  generation : a.controller.generation = generation

/-- The calls that the notices of a class cause in a cycle. -/
def callsFor (eventClass : EventClass) (id : CallbackId) (generation : UInt32)
    (notices : List Notice) : List Controller.Call :=
  (notices.filter fun n => n.event.eventClass == eventClass).map fun n =>
    ⟨id, ⟨.hdmi, n.index, generation⟩, n.event⟩

theorem step_register (h : a.controller.isActive = true) (eventClass : EventClass)
    (id : CallbackId) :
    a.step (.request (.register eventClass id)) =
      ⟨a.controller.withCallback id eventClass, a.firmware⟩ := by
  show Assembly.mk (a.controller.register a.firmware eventClass id).controller
    (a.controller.register a.firmware eventClass id).firmware = _
  unfold Controller.register
  rw [h]
  rfl

theorem hears_register (h : a.controller.isActive = true) (eventClass : EventClass)
    (id : CallbackId) :
    (a.step (.request (.register eventClass id))).Hears eventClass id a.controller.generation := by
  rw [step_register h]
  refine ⟨?_, ?_, ?_⟩
  · cases eventClass <;> exact h
  · rw [Controller.callback?_withCallback, if_pos rfl]
  · cases eventClass <;> rfl

/-- A callback goes on hearing its class through every step that does not replace it and does not
stop the controller. -/
theorem Hears.step (h : a.Hears eventClass id generation) (hs : ¬ s.Unregisters eventClass) :
    (a.step s).Hears eventClass id generation := by
  have hstop : s ≠ .request .stop := by
    rintro rfl
    exact hs trivial
  refine ⟨isActive_step h.active hstop, ?_, ?_⟩
  · rcases callback?_step a s eventClass with hsame | ⟨rfl, -⟩ | ⟨id', rfl, -⟩
    · rw [hsame, h.callback]
    · exact absurd rfl hstop
    · exact absurd rfl hs
  · rw [generation_step, begins_of_isActive h.active, h.generation]
    simp

/-- It hears to the end of a run of such steps. -/
theorem Hears.run (h : a.Hears eventClass id generation)
    (hs : ∀ s ∈ steps, ¬ s.Unregisters eventClass) :
    (a.run steps).Hears eventClass id generation := by
  induction steps generalizing a with
  | nil => exact h
  | cons s steps ih =>
    exact ih (h.step (hs s (List.mem_cons_self ..))) fun t ht => hs t (List.mem_cons_of_mem _ ht)

/-- **While a callback is registered** the calls for its class are the notices of the class that are
delivered, in order, each with the handle of the connector it is about. -/
theorem Hears.calls_eq (h : a.Hears eventClass id generation)
    (hs : ∀ s ∈ steps, ¬ s.Unregisters eventClass) :
    ((a.calls steps).filter fun call => call.event.eventClass == eventClass) =
      callsFor eventClass id generation (a.delivered steps) := by
  induction steps generalizing a with
  | nil => rfl
  | cons s steps ih =>
    have hrest := ih (h.step (hs s (List.mem_cons_self ..)))
      fun t ht => hs t (List.mem_cons_of_mem _ ht)
    by_cases hd : s = .request .dispatch
    · subst hd
      rw [calls_cons_dispatch, List.filter_append, hrest, Controller.calls_of_class h.callback,
        delivered_cons, ofFate_leaves_dispatch]
      unfold callsFor Controller.noticeHandle
      rw [h.generation, List.filter_append, List.map_append]
    · rw [calls_cons_of_ne hd, hrest, delivered_cons, ofFate_leaves_of_ne (fateIn_ne_delivered hd)]
      rfl

/-! ## Callbacks that are not registered -/

/-- No step registers the callback. -/
def NeverRegisters (id : CallbackId) (steps : List (Step σ)) : Prop :=
  ∀ eventClass, Step.request (.register eventClass id) ∉ steps

omit [Firmware σ] in
theorem NeverRegisters.head (h : NeverRegisters id (s :: steps)) (eventClass : EventClass) :
    s ≠ .request (.register eventClass id) :=
  (List.ne_and_not_mem_of_not_mem_cons (h eventClass)).1.symm

omit [Firmware σ] in
theorem NeverRegisters.tail (h : NeverRegisters id (s :: steps)) : NeverRegisters id steps :=
  fun eventClass => (List.ne_and_not_mem_of_not_mem_cons (h eventClass)).2

omit [Firmware σ] in
theorem NeverRegisters.of_append {first second : List (Step σ)}
    (h : NeverRegisters id (first ++ second)) :
    NeverRegisters id first ∧ NeverRegisters id second :=
  ⟨fun eventClass hmem => h eventClass (List.mem_append_left _ hmem),
    fun eventClass hmem => h eventClass (List.mem_append_right _ hmem)⟩

/-- A callback does not come to be registered without a registration. -/
theorem callback?_step_ne (h : a.controller.callback? eventClass ≠ some id)
    (hs : s ≠ .request (.register eventClass id)) :
    (a.step s).controller.callback? eventClass ≠ some id := by
  rcases callback?_step a s eventClass with hsame | ⟨-, hnone⟩ | ⟨id', rfl, hother⟩
  · rw [hsame]
    exact h
  · rw [hnone]
    simp
  · rw [hother]
    intro he
    obtain rfl := Option.some.inj he
    exact hs rfl

/-- The callback is registered for no class. -/
def IsSilent (a : Assembly σ) (id : CallbackId) : Prop :=
  ∀ eventClass, a.controller.callback? eventClass ≠ some id

/-- A callback that is registered nowhere stays so as long as nothing registers it. -/
theorem IsSilent.step (h : a.IsSilent id)
    (hs : ∀ eventClass, s ≠ .request (.register eventClass id)) : (a.step s).IsSilent id :=
  fun eventClass => callback?_step_ne (h eventClass) (hs eventClass)

/-- So it is silent through any run that never registers it. -/
theorem IsSilent.run (h : a.IsSilent id) (hs : NeverRegisters id steps) :
    (a.run steps).IsSilent id := by
  induction steps generalizing a with
  | nil => exact h
  | cons s steps ih => exact ih (h.step hs.head) hs.tail

/-- A callback is not called while it is registered nowhere. -/
theorem calls_of_isSilent (h : a.IsSilent id) (hs : NeverRegisters id steps) :
    ((a.calls steps).filter fun call => call.callback == id) = [] := by
  induction steps generalizing a with
  | nil => rfl
  | cons s steps ih =>
    have hrest := ih (h.step hs.head) hs.tail
    by_cases hd : s = .request .dispatch
    · subst hd
      have hnow : (a.controller.dispatch.2.calls.filter fun call => call.callback == id) = [] := by
        rw [List.filter_eq_nil_iff]
        intro call hcall hid
        have hregistered := (Controller.exists_of_mem_calls hcall).1
        rw [beq_iff_eq.mp hid] at hregistered
        exact h _ hregistered
      rw [calls_cons_dispatch, List.filter_append, hnow, hrest]
      rfl
    · rw [calls_cons_of_ne hd, hrest]

/-! ## Callbacks that are registered once -/

/-- The callback is registered for no other class. -/
def OnlyFor (a : Assembly σ) (eventClass : EventClass) (id : CallbackId) : Prop :=
  ∀ other, other ≠ eventClass → a.controller.callback? other ≠ some id

/-- A callback that is registered for one class at most stays so as long as nothing registers it. -/
theorem OnlyFor.step (h : a.OnlyFor eventClass id)
    (hs : ∀ other, s ≠ .request (.register other id)) :
    (a.step s).OnlyFor eventClass id :=
  fun other hne => callback?_step_ne (h other hne) (hs other)

theorem OnlyFor.run (h : a.OnlyFor eventClass id) (hs : NeverRegisters id steps) :
    (a.run steps).OnlyFor eventClass id := by
  induction steps generalizing a with
  | nil => exact h
  | cons s steps ih => exact ih (h.step hs.head) hs.tail

/-- The registration of a silent callback is for one class only. -/
theorem IsSilent.onlyFor (h : a.IsSilent id) (eventClass : EventClass) :
    (a.step (.request (.register eventClass id))).OnlyFor eventClass id := by
  intro other hne
  refine callback?_step_ne (h other) fun hsame => hne ?_
  injection hsame with hsame
  injection hsame with hsame
  exact hsame.symm

/-- A callback that is registered for one class only gets the calls for this class. -/
theorem Hears.calls_filter (h : a.Hears eventClass id generation)
    (honly : a.OnlyFor eventClass id) (hs : ∀ s ∈ steps, ¬ s.Unregisters eventClass)
    (hid : NeverRegisters id steps) :
    ((a.calls steps).filter fun call => call.callback == id) =
      (a.calls steps).filter fun call => call.event.eventClass == eventClass := by
  induction steps generalizing a with
  | nil => rfl
  | cons s steps ih =>
    have hrest := ih (h.step (hs s (List.mem_cons_self ..))) (honly.step hid.head)
      (fun t ht => hs t (List.mem_cons_of_mem _ ht)) hid.tail
    -- only a dispatch calls, and in it the callback is registered for this class alone
    by_cases hd : s = .request .dispatch
    · subst hd
      have hnow : (a.controller.dispatch.2.calls.filter fun call => call.callback == id) =
          a.controller.dispatch.2.calls.filter fun call =>
            call.event.eventClass == eventClass := by
        apply List.filter_congr
        intro call hcall
        have hregistered := (Controller.exists_of_mem_calls hcall).1
        by_cases hclass : call.event.eventClass = eventClass
        · rw [hclass, h.callback] at hregistered
          simp [hclass, Option.some.inj hregistered]
        · have hne : call.callback ≠ id := by
            intro he
            rw [he] at hregistered
            exact honly _ hclass hregistered
          simp [hclass, hne]
      rw [calls_cons_dispatch, List.filter_append, List.filter_append, hnow, hrest]
    · rw [calls_cons_of_ne hd, hrest]

/-- With the end of its registration a callback that is registered for one class becomes silent. -/
theorem Hears.isSilent_step (h : a.Hears eventClass id generation)
    (honly : a.OnlyFor eventClass id) (hs : s.Unregisters eventClass)
    (hid : ∀ other, s ≠ .request (.register other id)) : (a.step s).IsSilent id := by
  intro other
  by_cases hclass : other = eventClass
  · subst hclass
    cases s with
    | push | drain | firmware => exact hs.elim
    | request request =>
      cases request with
      | stop =>
        rw [step_stop h.active]
        cases other <;> simp [Controller.deactivated, Controller.callback?]
      | register registered id' =>
        have hsame : registered = other := hs
        subst hsame
        rw [step_register h.active, Controller.callback?_withCallback, if_pos rfl]
        intro he
        exact hid registered (by rw [Option.some.inj he])
      | start | handle | on | dispatch => exact hs.elim
  · exact callback?_step_ne (honly other hclass) (hid other)

/-- **A callback that is registered once** is called for what is delivered until its registration
ends. -/
theorem Hears.calls_filter_append {during after : List (Step σ)}
    (h : a.Hears eventClass id generation) (honly : a.OnlyFor eventClass id)
    (hduring : ∀ s ∈ during, ¬ s.Unregisters eventClass)
    (hafter : ∀ s ∈ after.head?, s.Unregisters eventClass)
    (hid : NeverRegisters id (during ++ after)) :
    ((a.calls (during ++ after)).filter fun call => call.callback == id) =
      callsFor eventClass id generation (a.delivered during) := by
  obtain ⟨hfirst, hlater⟩ := hid.of_append
  -- afterwards there is nothing, or a step without calls that silences the callback
  have hend : (((a.run during).calls after).filter fun call => call.callback == id) = [] := by
    cases after with
    | nil => rfl
    | cons s rest =>
      have hs : s.Unregisters eventClass := hafter s rfl
      have hne : s ≠ .request .dispatch := by
        rintro rfl
        exact hs
      have hsilent := (h.run hduring).isSilent_step (honly.run hfirst) hs hlater.head
      rw [calls_cons_of_ne hne]
      exact calls_of_isSilent hsilent hlater.tail
  rw [calls_append, List.filter_append, hend, List.append_nil,
    h.calls_filter honly hduring hfirst, h.calls_eq hduring]

end Assembly

end VideoOutput
