import Mathlib.Data.List.Nodup
import VideoOutput.Proofs.Assembly

/-!
# What a refused request leaves behind

A request that fails changes nothing, whatever the firmware answered on the way, with two
exceptions. Reading the identification data forgets the accepted resolutions of its connector first,
and they stay forgotten when the reading fails. A start in which the firmware starts but cannot tell
the state of the link has emptied the queue by then, and stops the firmware again. `Aftermath` says
this for one outcome and `refused_request` for every request in every reachable state.

A request on a connector never touches another one, whether it succeeds or fails (`SparesOthers`).

Each exception is described by a condition on the state and the request alone, together with the
answers that the firmware gave: `ReadsIdentity` and `LosesLink`. Neither mentions what the request
did, so the theorem is a statement about the program and not a second name for its outcome. The list
of effects has the same two cases, and going through it is the whole proof; that a place names at
most one connector is what makes the change of one connector a change of no other.
-/

namespace VideoOutput

/-- No two connectors stand in the same place. -/
theorem Settings.nodup_places (settings : Settings) : settings.places.Nodup := by
  have hkind : ∀ (kind : Connector.Kind) (count : UInt8),
      ((List.range count.toNat).map fun i => (kind, UInt8.ofNat i)).Nodup := by
    intro kind count
    refine List.Nodup.map_on (fun i hi j hj hij => ?_) List.nodup_range
    have hi' := List.mem_range.mp hi
    have hj' := List.mem_range.mp hj
    have hcount := count.toNat_lt
    -- numbers of connectors fit into a byte, so they stay apart there
    have hbyte := congrArg UInt8.toNat (Prod.mk.inj hij).2
    rw [UInt8.toNat_ofNat', UInt8.toNat_ofNat'] at hbyte
    omega
  unfold Settings.places
  refine List.Nodup.append (hkind _ _) (hkind _ _) fun p hp hp' => ?_
  obtain ⟨i, -, rfl⟩ := List.mem_map.mp hp
  obtain ⟨j, -, hj⟩ := List.mem_map.mp hp'
  exact absurd (congrArg Prod.fst hj) (by simp)

namespace Controller

variable {σ : Type} [Firmware σ] {c : Controller} {h : Handle}

/-! ## One connector at a time -/

/-- Where places are distinct, a handle names one connector, and a change of what it names is a
change of that connector. -/
theorem exists_modify_eq_set (hplaces : (c.connectors.map place).Nodup) {x : Connector}
    (hr : c.resolve h = .ok x) (change : Connector → Connector) :
    ∃ i, c.connectors[i]? = some x ∧
      c.modify h change = { c with connectors := c.connectors.set i (change x) } := by
  obtain ⟨i, hi, hx⟩ := List.mem_iff_getElem.mp (mem_of_resolve hr)
  refine ⟨i, by rw [List.getElem?_eq_getElem hi, hx], ?_⟩
  unfold modify
  congr 1
  refine List.ext_getElem (by simp) fun j hj _ => ?_
  have hj' : j < c.connectors.length := by simpa using hj
  rw [List.getElem_map, List.getElem_set]
  by_cases hij : i = j
  · subst hij
    rw [if_pos rfl, if_pos (by rw [hx]; exact isNamedBy_iff.mpr (named_of_resolve hr)), hx]
  · rw [if_neg hij, if_neg]
    intro hnamed
    -- a second connector with this name would stand in the same place
    have hplace : (c.connectors.map place)[i]? = (c.connectors.map place)[j]? := by
      obtain ⟨hk, hn⟩ := isNamedBy_iff.mp hnamed
      obtain ⟨hk', hn'⟩ := named_of_resolve hr
      rw [List.getElem?_map, List.getElem?_map, List.getElem?_eq_getElem hi,
        List.getElem?_eq_getElem hj', hx]
      exact congrArg some (Prod.ext (hk'.trans hk.symm) (hn'.trans hn.symm))
    exact hij ((List.getElem?_inj (by simpa using hi) hplaces).mp hplace)

/-- Every connector that the handle does not name is in its old place and state. -/
structure SparesOthers (c : Controller) (h : Handle) (c' : Controller) : Prop where
  length : c'.connectors.length = c.connectors.length
  others : ∀ (i : Nat) (x : Connector), c.connectors[i]? = some x → x.isNamedBy h = false →
    c'.connectors[i]? = some x

theorem SparesOthers.refl (c : Controller) (h : Handle) : c.SparesOthers h c :=
  ⟨rfl, fun _ _ hx _ => hx⟩

theorem sparesOthers_modify (c : Controller) (h : Handle) (change : Connector → Connector) :
    c.SparesOthers h (c.modify h change) := by
  refine ⟨by simp [modify], fun i x hx hother => ?_⟩
  unfold modify
  rw [List.getElem?_map, hx]
  simp [hother]

/-- A request on a connector touches no other connector. -/
theorem Effect.sparesOthers {c' : Controller} {fw fw' : σ} {request : HandleRequest}
    {answer : Except Error Answer} (he : Effect c fw (.on h request) answer c' fw') :
    c.SparesOthers h c' := by
  cases he with
  | refused | asked | switchRefused | modeRefused => exact .refl c h
  | switched | modeSet | forgotten | remembered => exact sparesOthers_modify c h _

/-! ## The two exceptions -/

/-- The request is to read the identification data at connector `x`, and `x` can be asked for
them. -/
def ReadsIdentity (c : Controller) (r : Request) (x : Connector) : Prop :=
  ∃ h currentYear, r = .on h (.readIdentity currentYear) ∧ c.resolve h = .ok x ∧ x.kind = .hdmi

/-- The firmware after a start, with the queue attached. -/
def attached (c : Controller) (fw : σ) : σ :=
  Firmware.attach c.queueId (Firmware.start fw).state

/-- The request is a start in which the firmware starts but does not tell the state of the link,
which is asked for if there is an HDMI connector. -/
def LosesLink (c : Controller) (fw : σ) (r : Request) : Prop :=
  r = .start ∧ c.isActive = false ∧ (Firmware.start fw).answer = .ok () ∧ c.hasHdmi = true ∧
    ∃ failure, (Firmware.linkState (c.attached fw)).answer = .error failure

/-- A reading that fails has forgotten what the display accepts, and did nothing else. -/
theorem readIdentity_of_error {x : Connector} {fw : σ} {currentYear : Nat} {e : Error}
    (hr : c.resolveHdmi h .readIdentity = .ok x)
    (he : (c.readIdentity fw h currentYear).result = .error e) :
    (c.readIdentity fw h currentYear).controller = c.remember h none := by
  unfold readIdentity at he ⊢
  rw [hr] at he ⊢
  dsimp only at he ⊢
  split at he
  next => rfl
  next =>
    split at he
    next => rfl
    next =>
      split at he
      next => rfl
      next => exact absurd he (by simp)

/-- A start is refused for the link exactly if the link is asked for and not told. -/
theorem askedAtStart_eq_error_iff {fw : σ} {failure : Firmware.Failure} :
    (c.askedAtStart fw).answer = .error failure ↔
      c.hasHdmi = true ∧ (Firmware.linkState (c.attached fw)).answer = .error failure := by
  unfold askedAtStart askConnected attached
  cases hhdmi : c.hasHdmi with
  | false => simp
  | true =>
    simp only [if_true, true_and]
    cases (Firmware.linkState (Firmware.attach c.queueId (Firmware.start fw).state)).answer with
    | ok link => simp [Except.map]
    | error failure' => simp [Except.map]

/-- What a start leaves behind that does not learn the state of the link. -/
theorem start_of_losesLink {fw : σ} {r : Request} (hl : c.LosesLink fw r) :
    (c.start fw).controller = c.emptyQueue ∧
      (c.start fw).firmware = Firmware.stop (Firmware.linkState (c.attached fw)).state := by
  obtain ⟨-, hact, hs, hhdmi, failure, hlink⟩ := hl
  have hasked := askedAtStart_eq_error_iff.mpr ⟨hhdmi, hlink⟩
  have hstate : (c.askedAtStart fw).state = (Firmware.linkState (c.attached fw)).state := by
    unfold askedAtStart askConnected
    rw [if_pos hhdmi]
    rfl
  unfold start
  simp only [hact, Bool.false_eq_true, if_false, hs,
    show c.emptyQueue.queueId = c.queueId from rfl, askedAtStart_eq, hasked, hstate]
  exact ⟨trivial, trivial⟩

/-! ## Refused requests -/

/-- What a refused request leaves behind. -/
structure Aftermath (c : Controller) (fw : σ) (r : Request) (o : Outcome σ Answer) : Prop where
  /-- The accepted resolutions of one connector are forgotten. -/
  identity : ∀ x, c.ReadsIdentity r x → ∃ i, c.connectors[i]? = some x ∧
    o.controller = { c with connectors := c.connectors.set i { x with accepted := none } }
  /-- The queue is empty, and the firmware was stopped right after it was asked for the link. -/
  link : c.LosesLink fw r → o.controller = c.emptyQueue ∧
    o.firmware = Firmware.stop (Firmware.linkState (c.attached fw)).state
  other : (¬ ∃ x, c.ReadsIdentity r x) → ¬ c.LosesLink fw r → o.controller = c

/-- Apart from the two exceptions a refused request has changed nothing. -/
theorem Effect.eq_of_error {c' : Controller} {fw fw' : σ} {r : Request} {e : Error}
    (he : Effect c fw r (.error e) c' fw') (hread : ¬ ∃ x, c.ReadsIdentity r x)
    (hlink : ¬ c.LosesLink fw r) : c' = c := by
  cases he with
  | refused | asked | startRefused | switchRefused | modeRefused => rfl
  | linkRefused hact hs hl =>
    obtain ⟨hhdmi, hl⟩ := askedAtStart_eq_error_iff.mp hl
    exact absurd ⟨rfl, hact, hs, hhdmi, _, hl⟩ hlink
  | forgotten _ hr hk => exact absurd ⟨_, _, _, rfl, hr, hk⟩ hread

theorem aftermath_of_error (hplaces : (c.connectors.map place).Nodup) {fw : σ} {r : Request}
    {e : Error} (he : (c.perform fw r).result = .error e) :
    c.Aftermath fw r (c.perform fw r) := by
  refine ⟨fun x hread => ?_, fun hlink => ?_, fun hread hlink => ?_⟩
  · obtain ⟨h, currentYear, rfl, hr, hk⟩ := hread
    have hr' : c.resolveHdmi h .readIdentity = .ok x := resolveHdmi_eq_ok_iff.mpr ⟨hr, hk⟩
    have hfailed : ∃ e, (c.readIdentity fw h currentYear).result = .error e := by
      have hmap : (c.readIdentity fw h currentYear).result.map Answer.identity = .error e := he
      cases hres : (c.readIdentity fw h currentYear).result with
      | error e' => exact ⟨e', rfl⟩
      | ok identity =>
        rw [hres] at hmap
        exact absurd hmap (by simp [Except.map])
    obtain ⟨e', he'⟩ := hfailed
    obtain ⟨i, hi, hset⟩ :=
      exists_modify_eq_set hplaces hr fun connector => { connector with accepted := none }
    exact ⟨i, hi, (readIdentity_of_error hr' he').trans hset⟩
  · obtain rfl := hlink.1
    exact start_of_losesLink hlink
  · have heffect := perform_isEffect c fw r
    unfold Outcome.IsEffect at heffect
    rw [he] at heffect
    exact heffect.eq_of_error hread hlink

end Controller

namespace Assembly

variable {σ : Type} [Firmware σ]

/-- **A refused request changes nothing but what its aftermath says**, for valid settings, in every
state that a controller over any firmware can reach, and whatever the firmware answers. And no
request on a connector touches another connector, refused or not. -/
theorem refused_request {settings : Settings} (id : Connector.QueueId) (fw : σ)
    (hvalid : settings.check = .ok settings) :
    ∃ a, fresh id settings fw = .ok a ∧ ∀ steps (fw' : σ) r,
      (∀ e, ((a.run steps).controller.perform fw' r).result = .error e →
        (a.run steps).controller.Aftermath fw' r ((a.run steps).controller.perform fw' r)) ∧
      ∀ h request, r = .on h request →
        (a.run steps).controller.SparesOthers h
          ((a.run steps).controller.perform fw' r).controller := by
  obtain ⟨catalog, hfresh⟩ := fresh_of_check hvalid id fw
  refine ⟨_, hfresh, fun steps fw' r => ⟨fun e he => ?_, fun h request hr => ?_⟩⟩
  · exact Controller.aftermath_of_error (places_run steps ▸ settings.nodup_places) he
  · subst hr
    exact (Controller.perform_isEffect _ fw' (.on h request)).sparesOthers

/-- A reading that fails forgets resolutions that were known, and a start that learns nothing of the
link loses a notice. -/
theorem aftermath_of_readIdentity_and_start :
    ∃ a, fresh 0 {} (⟨.fresh [] [4, 16] true, {}⟩ : Display) = .ok a ∧
      (∃ (steps : List (Step Display)) (fw : Display) (x : Connector),
        (a.run steps).controller.ReadsIdentity (.on ⟨.hdmi, 0, 1⟩ (.readIdentity 2024)) x ∧
        x.accepted ≠ none ∧
        (a.run steps).controller.Aftermath fw (.on ⟨.hdmi, 0, 1⟩ (.readIdentity 2024))
          ((a.run steps).controller.perform fw (.on ⟨.hdmi, 0, 1⟩ (.readIdentity 2024)))) ∧
      ∃ (steps : List (Step Display)) (fw : Display), (a.run steps).controller.LosesLink fw .start ∧
        (a.run steps).controller.queue.waiting ≠ [] ∧
        (a.run steps).controller.Aftermath fw .start
          ((a.run steps).controller.perform fw .start) := by
  obtain ⟨a, hfresh, hall⟩ := refused_request 0
    (⟨.fresh [] [4, 16] true, {}⟩ : Display) (rfl : Settings.check {} = .ok {})
  obtain rfl := Except.ok.inj hfresh
  refine ⟨_, hfresh, ⟨[.request .start, .request (.on ⟨.hdmi, 0, 1⟩ .accepted)],
    ⟨.fresh [] [] true, { readBlob := some "no answer" }⟩, _, ⟨_, _, rfl, rfl, rfl⟩, ?_,
    (hall _ _ _).1 _ rfl⟩, [.push ⟨0, .connected⟩],
    ⟨.fresh [] [] true, { linkState := some "no link" }⟩, ⟨rfl, rfl, rfl, rfl, _, rfl⟩, ?_,
    (hall _ _ _).1 _ rfl⟩
  · exact Option.some_ne_none _
  · exact List.cons_ne_nil _ _

end Assembly

end VideoOutput
