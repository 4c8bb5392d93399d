import VideoOutput.Proofs.Callbacks

/-!
# The delivery of notices over whole runs

`Account` is what can be said of the notices that a run pushes: each has one fate, they are
delivered in order and not beyond the start that follows them, and a callback is told of those
delivered while it is registered, of all of its class and of no other. It holds of every run over
any firmware (`exists_account`), since the ledger balances (`fst_fates`) and registrations last
(`Hears.calls_eq`).

The clauses are stated over runs that are cut at the events in question: at a start, at the
registration of a callback, at the step that takes it away. Nothing is assumed of the parts in
between, except where a clause says so, such as that a callback is not registered again. The totals
are sums over the run, so they hold for any number of cycles, also where the controller was stopped
with notices waiting, which the next start empties out.

The counter of the queue is part of the account. It counts what was dropped for want of room, and
neither what a start emptied out nor what a dispatch discarded.
-/

namespace VideoOutput.Assembly

open Connector (Fate EventClass)

variable {σ : Type} [Firmware σ] {a : Assembly σ} {settings : Settings}

/-- What becomes of the notices that a run pushes, and who is told. -/
structure Account (settings : Settings) (a : Assembly σ) (steps : List (Step σ)) : Prop where
  /-- Every notice that is pushed has one fate. -/
  fates : (a.fates steps).map Prod.fst = pushes steps
  /-- The notices are delivered in the order in which they were pushed. -/
  delivered : (a.delivered steps).Sublist (pushes steps)
  /-- The queue counts, in 64 bits, the notices that are dropped for want of room. -/
  dropped : (a.run steps).controller.queue.dropped =
    UInt64.ofNat (Connector.ofFate .overflowed (a.departures steps)).length
  /-- None is taken away if nobody drains the queue past the controller. -/
  taken : Step.drain ∉ steps → ∀ entry ∈ a.fates steps, entry.2 ≠ .taken
  /-- A dispatch after the run delivers what is about an HDMI connector that the settings ask for,
  if the controller is active, and discards all other notices. -/
  dispatch : (a.run steps).departures [.request .dispatch] =
    (a.run steps).controller.queue.waiting.map fun n =>
      (n, if !(a.run steps).controller.isActive then Fate.idle
        else if n.index < settings.hdmiCount then .delivered else .unknown)
  /-- A start that empties the queue parts the notices pushed before it from those pushed after it,
  so that only the latter can be delivered after it. -/
  cycle : ∀ before after, steps = before ++ .request .start :: after →
    (a.run before).controller.clears (a.run before).firmware .start = true →
      a.fates steps = a.departures (before ++ [.request .start]) ++
          (a.run (before ++ [.request .start])).fates after ∧
        (a.departures (before ++ [.request .start])).map Prod.fst = pushes before ∧
        ((a.run (before ++ [.request .start])).fates after).map Prod.fst = pushes after ∧
        ((a.run (before ++ [.request .start])).delivered after).Sublist (pushes after)
  /-- While a callback is registered, the calls for its class are the notices of the class that are
  delivered. -/
  heard : ∀ before eventClass id during after,
    steps = before ++ .request (.register eventClass id) :: (during ++ after) →
    (a.run before).controller.isActive = true → (∀ s ∈ during, ¬ s.Unregisters eventClass) →
      let b := (a.run before).step (.request (.register eventClass id))
      ((b.calls during).filter fun call => call.event.eventClass == eventClass) =
        callsFor eventClass id (a.run before).controller.generation (b.delivered during)
  /-- A callback that is registered once in the run is called for nothing else. -/
  heardOnly : ∀ before eventClass id during after,
    steps = before ++ .request (.register eventClass id) :: (during ++ after) →
    (a.run before).controller.isActive = true → (∀ s ∈ during, ¬ s.Unregisters eventClass) →
    (∀ s ∈ after.head?, s.Unregisters eventClass) →
    NeverRegisters id (before ++ (during ++ after)) →
      let b := (a.run before).step (.request (.register eventClass id))
      ((a.calls steps).filter fun call => call.callback == id) =
        callsFor eventClass id (a.run before).controller.generation (b.delivered during)
  /-- The calls of a dispatch after the run are made with the handles that are given for the
  connectors at that time, and are accepted when it is over. -/
  handles : ∀ call ∈ (a.run steps).calls [.request .dispatch],
    (a.run steps).controller.handle .hdmi call.handle.index = .ok call.handle ∧
      ((a.run steps).step (.request .dispatch)).controller.Accepts σ call.handle
  /-- The numbers that the dispatches answer add up to the number of delivered notices. -/
  total : a.deliveredTotal steps = (a.delivered steps).length

/-- In a dispatch all that waits leaves, and the settings say which notices are delivered. -/
theorem departures_dispatch (hplaces : a.controller.connectors.map Controller.place =
    settings.places) :
    a.departures [.request .dispatch] = a.controller.queue.waiting.map fun n =>
      (n, if !a.controller.isActive then Fate.idle
        else if n.index < settings.hdmiCount then .delivered else .unknown) := by
  show (a.leaves (.request .dispatch)) ++ [] = _
  rw [List.append_nil]
  apply List.map_congr_left
  intro n _
  show (n, a.controller.fate n) = _
  unfold Controller.fate
  cases hact : a.controller.isActive with
  | false => rfl
  | true => simp only [Controller.delivers_iff hplaces, hact, true_and]

/-- A callback is told of an HDMI connector by the handle that is given for it. -/
theorem handle_of_mem_calls (hplaces : a.controller.connectors.map Controller.place =
    settings.places) {call : Controller.Call} (hcall : call ∈ a.calls [.request .dispatch]) :
    a.controller.handle .hdmi call.handle.index = .ok call.handle ∧
      (a.step (.request .dispatch)).controller.Accepts σ call.handle := by
  rw [calls_dispatch] at hcall
  obtain ⟨-, n, hn, hnamed, -⟩ := Controller.exists_of_mem_calls hcall
  obtain ⟨hact, hindex⟩ := (Controller.delivers_iff hplaces).mp (List.mem_filter.mp hn).2
  have hmem : (Connector.Kind.hdmi, n.index) ∈ settings.places := Settings.mem_places.mpr hindex
  rw [hnamed]
  refine ⟨Controller.handle_eq_ok_iff.mpr ⟨rfl, hact, ?_⟩, ?_⟩
  · rw [hplaces]
    exact hmem
  · -- a dispatch changes neither the activity, nor the generation, nor where the connectors stand
    have hact' : (a.step (.request .dispatch)).controller.isActive = true :=
      (Controller.isActive_dispatch a.controller).trans hact
    have hgen : (a.controller.noticeHandle n).generation =
        (a.step (.request .dispatch)).controller.generation := by
      rw [generation_step]
      simp [begins, Controller.noticeHandle]
    have hstands : ((a.controller.noticeHandle n).kind, (a.controller.noticeHandle n).index) ∈
        (a.step (.request .dispatch)).controller.connectors.map Controller.place := by
      rw [(sameSetup_step a (.request .dispatch)).places, hplaces]
      exact hmem
    obtain ⟨x, hx⟩ := (Controller.exists_resolve_iff hact' hgen).mpr hstands
    exact Controller.accepts_of_resolve hx

/-- The calls to a callback that was registered nowhere before, and is registered once. -/
theorem calls_filter_of_register {eventClass : EventClass} {id : CallbackId}
    {before during after : List (Step σ)} (hsilent : a.IsSilent id)
    (hact : (a.run before).controller.isActive = true)
    (hduring : ∀ s ∈ during, ¬ s.Unregisters eventClass)
    (hafter : ∀ s ∈ after.head?, s.Unregisters eventClass)
    (hid : NeverRegisters id (before ++ (during ++ after))) :
    ((a.calls (before ++ .request (.register eventClass id) :: (during ++ after))).filter
        fun call => call.callback == id) =
      callsFor eventClass id (a.run before).controller.generation
        (((a.run before).step (.request (.register eventClass id))).delivered during) := by
  obtain ⟨hbefore, hrest⟩ := hid.of_append
  have honly := (hsilent.run hbefore).onlyFor eventClass
  have hears := hears_register hact eventClass id
  rw [calls_append, calls_cons_of_ne (by simp), List.filter_append,
    calls_of_isSilent hsilent hbefore, List.nil_append,
    hears.calls_filter_append honly hduring hafter hrest]

/-- A controller that has just been made has its account after any run. -/
theorem account_run (hplaces : a.controller.connectors.map Controller.place = settings.places)
    (hbounded : a.controller.queue.IsBounded) (hempty : a.controller.queue.waiting = [])
    (hcount : a.controller.queue.dropped = 0) (hsilent : ∀ id, a.IsSilent id) (steps : List (Step σ)) : a.Account settings steps := by
  have hstands := (sameSetup_run a steps).places.trans hplaces
  refine ⟨fst_fates hbounded hempty steps, delivered_sublist hbounded hempty steps, ?dropped,
    fun hdrain entry hentry => fate_ne_taken hdrain hentry, departures_dispatch hstands, ?cycle,
    ?heard, ?heardOnly, fun call hcall => handle_of_mem_calls hstands hcall,
    deliveredTotal_eq a steps⟩
  case dropped => rw [dropped_run, hcount, UInt64.zero_add]
  case cycle =>
    intro before after hsplit hclears
    refine ⟨?_, fst_fates_of_clears hbounded hempty before after hclears⟩
    rw [hsplit, ← fates_append, List.append_assoc, List.singleton_append]
  case heard =>
    intro before eventClass id during after _ hact hduring
    exact (hears_register hact eventClass id).calls_eq hduring
  case heardOnly =>
    intro before eventClass id during after hsplit hact hduring hafter hid
    rw [hsplit]
    exact calls_filter_of_register (hsilent id) hact hduring hafter hid

/-- **Delivery over whole runs.** For valid settings there is a controller over any firmware, and
every run of it has its account. -/
theorem exists_account (id : Connector.QueueId) (fw : σ) (hvalid : settings.check = .ok settings) :
    ∃ a, fresh id settings fw = .ok a ∧ ∀ steps, a.Account settings steps := by
  obtain ⟨catalog, hfresh⟩ := fresh_of_check hvalid id fw
  refine ⟨_, hfresh, account_run (Controller.places_initial id settings catalog) (Nat.zero_le _) rfl
    rfl ?_⟩
  intro callback eventClass
  cases eventClass <;> exact (Option.some_ne_none callback).symm

/-- Seven notices with all fates but one, in a queue for two, and two callbacks of which the second
takes the place of the first. -/
theorem account_of_seven_notices :
    ∃ a, fresh 0 { queueLimit := 2 } (⟨.fresh [] [4, 16] true, {}⟩ : Display) = .ok a ∧
      ∃ steps, a.Account { queueLimit := 2 } steps ∧
        a.fates steps = [(⟨0, .connected⟩, .idle), (⟨0, .disconnected⟩, .outdated),
          (⟨0, .connected⟩, .overflowed), (⟨1, .connected⟩, .unknown),
          (⟨0, .sensed true⟩, .delivered), (⟨0, .disconnected⟩, .delivered),
          (⟨0, .connected⟩, .waiting)] ∧
        a.calls steps = [⟨"first", ⟨.hdmi, 0, 1⟩, .sensed true⟩,
          ⟨"second", ⟨.hdmi, 0, 1⟩, .disconnected⟩] ∧
        a.deliveredTotal steps = 2 := by
  obtain ⟨a, hfresh, hall⟩ := exists_account 0 (⟨.fresh [] [4, 16] true, {}⟩ : Display)
    (rfl : Settings.check { queueLimit := 2 } = .ok { queueLimit := 2 })
  obtain rfl := Except.ok.inj hfresh
  refine ⟨_, hfresh, [.push ⟨0, .connected⟩, .request .dispatch, .push ⟨0, .disconnected⟩,
    .request .start, .request (.register .display "first"), .push ⟨0, .connected⟩,
    .push ⟨1, .connected⟩, .push ⟨0, .sensed true⟩, .request .dispatch,
    .request (.register .display "second"), .push ⟨0, .disconnected⟩, .request .dispatch,
    .push ⟨0, .connected⟩], hall _, rfl, rfl, rfl⟩

end VideoOutput.Assembly
