import VideoOutput.Controller.Request
import VideoOutput.Proofs.Catalog

/-!
# What a controller is set up with

A controller made of valid settings (`initial`) has a catalog over the platform's table, the
checksum policy, a queue with its limit and the connectors in their places. `SameSetup` says that a
later controller still has all of them; the lemmas below give it for every way a controller changes:
a notice that is pushed, a queue that is emptied, a callback, a connector that is changed in place,
a dispatch.

A place is the kind and the index of a connector. The settings count the connectors of each kind and
`places_connectorsOf` numbers them from zero, so a place names at most one connector and a handle
can carry a place where another program would carry a pointer. `dispatch_induction` is the way every
later module reasons about a dispatch: what emptying the queue and applying one notice both keep, a
dispatch keeps. An inactive controller is no exception to it, as it drains its queue like another
and only applies none of what it drained.
-/

namespace VideoOutput

/-- Where the connectors stand that settings ask for: HDMI first, each kind counted from zero. -/
def Settings.places (settings : Settings) : List (Connector.Kind × UInt8) :=
  (List.range settings.hdmiCount.toNat).map (fun i => (.hdmi, UInt8.ofNat i)) ++
    (List.range settings.compositeCount.toNat).map fun i => (.composite, UInt8.ofNat i)

namespace Controller

/-! ## Controllers that were never started -/

/-- Where a connector stands in the list of all: its kind and its number. -/
def place (x : Connector) : Connector.Kind × UInt8 :=
  (x.kind, x.index)

/-- The controller made of settings and their catalog. -/
def initial (id : Connector.QueueId) (settings : Settings) (catalog : Mode.Catalog) : Controller :=
  { catalog
    checksum := settings.checksum
    connectors :=
      connectorsOf .hdmi settings.hdmiCount ++ connectorsOf .composite settings.compositeCount
    queueId := id
    queue := { limit := settings.queueLimit } }

/-- Settings that pass the check make a controller. -/
theorem ofSettings_of_check {settings : Settings} (hvalid : settings.check = .ok settings)
    (id : Connector.QueueId) :
    ∃ catalog, Mode.Catalog.withFallback settings.fallback = .ok catalog ∧
      ofSettings id settings = .ok (initial id settings catalog) := by
  cases hcat : Mode.Catalog.withFallback settings.fallback with
  | error cause =>
    -- the check would have refused the fallback
    have hnone : settings.catalog = .error (.fallback cause) := by
      unfold Settings.catalog
      rw [hcat]
    unfold Settings.check at hvalid
    rw [hnone] at hvalid
    split at hvalid
    next => exact absurd hvalid (by simp)
    next => exact absurd hvalid (by simp)
  | ok catalog =>
    have hsome : settings.catalog = .ok catalog := by
      unfold Settings.catalog
      rw [hcat]
    refine ⟨catalog, rfl, ?_⟩
    unfold ofSettings
    rw [hvalid, hsome]
    rfl

/-- The connectors of one kind are numbered from zero without a gap. -/
theorem places_connectorsOf (kind : Connector.Kind) (count : UInt8) :
    (connectorsOf kind count).map place =
      (List.range count.toNat).map fun i => (kind, UInt8.ofNat i) := by
  unfold connectorsOf
  rw [List.map_map]
  exact List.map_congr_left fun i _ => rfl

/-- A new controller has exactly the connectors that its settings count. -/
theorem places_initial (id : Connector.QueueId) (settings : Settings) (catalog : Mode.Catalog) :
    (initial id settings catalog).connectors.map place = settings.places := by
  show (connectorsOf .hdmi settings.hdmiCount ++
    connectorsOf .composite settings.compositeCount).map place = settings.places
  rw [List.map_append, places_connectorsOf, places_connectorsOf]
  rfl

/-! ## What never changes -/

/-- The second controller was set up like the first. -/
structure SameSetup (c c' : Controller) : Prop where
  queueId : c'.queueId = c.queueId
  catalog : c'.catalog = c.catalog
  checksum : c'.checksum = c.checksum
  limit : c'.queue.limit = c.queue.limit
  places : c'.connectors.map place = c.connectors.map place

theorem SameSetup.refl (c : Controller) : SameSetup c c :=
  ⟨rfl, rfl, rfl, rfl, rfl⟩

theorem SameSetup.trans {c c' c'' : Controller} (h : SameSetup c c') (h' : SameSetup c' c'') :
    SameSetup c c'' :=
  ⟨h'.queueId.trans h.queueId, h'.catalog.trans h.catalog, h'.checksum.trans h.checksum,
    h'.limit.trans h.limit, h'.places.trans h.places⟩

/-- A push never changes the limit of the queue, full or not. -/
theorem limit_push (q : Connector.Queue) (notice : Connector.Notice) :
    (q.push notice).limit = q.limit := by
  unfold Connector.Queue.push
  split
  next => rfl
  next => split <;> rfl

theorem sameSetup_push (c : Controller) (notice : Connector.Notice) :
    SameSetup c (c.push notice) :=
  ⟨rfl, rfl, rfl, limit_push c.queue notice, rfl⟩

theorem sameSetup_emptyQueue (c : Controller) : SameSetup c c.emptyQueue :=
  ⟨rfl, rfl, rfl, rfl, rfl⟩

theorem sameSetup_withCallback (c : Controller) (id : CallbackId)
    (eventClass : Connector.EventClass) : SameSetup c (c.withCallback id eventClass) := by
  cases eventClass <;> exact ⟨rfl, rfl, rfl, rfl, rfl⟩

/-- A change of the connector that a handle names moves no connector, unless the change does. -/
theorem sameSetup_modify (c : Controller) (h : Handle) {change : Connector → Connector}
    (hplace : ∀ x, place (change x) = place x) : SameSetup c (c.modify h change) := by
  refine ⟨rfl, rfl, rfl, rfl, ?_⟩
  unfold modify
  rw [List.map_map]
  apply List.map_congr_left
  intro x _
  show place (if x.isNamedBy h then change x else x) = place x
  split
  next => exact hplace x
  next => rfl

/-- After a change of one connector each of them is either one from before or the changed one that
the handle names. -/
theorem exists_of_mem_modify {c : Controller} {h : Handle} {change : Connector → Connector}
    {y : Connector} (hy : y ∈ (c.modify h change).connectors) :
    ∃ x ∈ c.connectors, (x.isNamedBy h = true ∧ y = change x) ∨ y = x := by
  obtain ⟨x, hx, rfl⟩ := List.mem_map.mp hy
  refine ⟨x, hx, ?_⟩
  split
  next hn => exact .inl ⟨hn, rfl⟩
  next => exact .inr rfl

/-- An event changes the state of a connector and never its place. -/
theorem place_apply (x : Connector) (event : Connector.Event) :
    place (x.apply event) = place x := by
  cases event <;> rfl

/-- What emptying the queue establishes and every delivered notice keeps holds after a dispatch. -/
theorem dispatch_induction {c : Controller} {P : Controller → Prop} (hempty : P c.emptyQueue)
    (hstep : ∀ (c' : Controller) (notice : Connector.Notice),
      c.delivers notice = true → P c' → P (c'.applyNotice notice)) : P c.dispatch.1 := by
  -- induction on the notices still to be delivered; which ones are is decided beforehand
  have hfold : ∀ (notices : List Connector.Notice),
      (∀ n ∈ notices, c.delivers n = true) → ∀ c', P c' → P (notices.foldl applyNotice c') := by
    intro notices
    induction notices with
    | nil => intro _ c' hc; exact hc
    | cons n notices ih =>
      intro hall c' hc
      exact ih (fun m hm => hall m (List.mem_cons_of_mem _ hm)) _
        (hstep c' n (hall n (List.mem_cons_self ..)) hc)
  exact hfold c.deliverable (fun n hn => (List.mem_filter.mp hn).2) _ hempty

theorem sameSetup_dispatch (c : Controller) : SameSetup c c.dispatch.1 :=
  dispatch_induction (sameSetup_emptyQueue c) fun c' notice _ h =>
    h.trans (sameSetup_modify c' _ fun x => place_apply x notice.event)

theorem isActive_dispatch (c : Controller) : c.dispatch.1.isActive = c.isActive :=
  dispatch_induction (P := fun c' => c'.isActive = c.isActive) rfl fun _ _ _ h => h

/-- Resetting every connector moves none. -/
theorem places_reset (connectors : List Connector) (state : Connector → Connector.State) :
    (connectors.map fun x => x.reset (state x)).map place = connectors.map place := by
  rw [List.map_map]
  exact List.map_congr_left fun x _ => rfl

end Controller

end VideoOutput
