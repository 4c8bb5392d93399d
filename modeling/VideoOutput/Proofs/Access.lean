import VideoOutput.Proofs.Watched

/-!
# Who may ask what

Whether a request through a handle is carried out is decided before the firmware is called, in a
fixed order: by the controller being active, by the generation of the handle, by the connector being
there, and by what the connector lacks for the request. `Settings.refusal?` states this order, and
`performOn_of_refusal?` that a request which it refuses does nothing at all, over any firmware.

A request that it lets pass is answered for by the firmware: it fails with the failure of the first
call that failed, or, all calls having been answered, for a reason of its own. `request_judged` puts
both together for every state that a controller can reach and every handle, wherever that is from.

What a connector lacks depends on its kind alone (`lacking?`). A composite connector has no display
to ask and no mode to set; no connector can have its content protection switched. Three requests
need no ability and are answered for both kinds: the state, the flag and the resolution that was
requested last, which is none on a composite connector. The watched firmware of the module before
says which call was the first to fail, and that a watched controller behaves like any other.
-/

namespace VideoOutput

open Firmware (Watched firstFailure?)
open Controller (Error HandleRequest Ability Mirrors OwnError)

/-- Why a request through a handle is refused, if it is, with the connectors that settings ask
for. -/
def Settings.refusal? (settings : Settings) (c : Controller) (h : Handle) (r : HandleRequest) :
    Option Error :=
  if c.isActive = false then some .notActive
  else if h.generation ≠ c.generation then some .staleHandle
  else if settings.count h.kind ≤ h.index then some .noConnector
  else (r.lacking? h.kind).map .unsupported

namespace Controller

variable {σ : Type} [Firmware σ] {c : Controller} {h : Handle} {settings : Settings}

/-- A handle of the right generation for a place without a connector is refused as such. -/
theorem resolve_of_missing (hact : c.isActive = true) (hgen : h.generation = c.generation)
    (hplace : (h.kind, h.index) ∉ c.connectors.map place) : c.resolve h = .error .noConnector := by
  have hnone : c.connectors.find? (fun connector => connector.isNamedBy h) = none := by
    rw [List.find?_eq_none]
    intro x hx hnamed
    obtain ⟨hk, hn⟩ := isNamedBy_iff.mp hnamed
    exact hplace (List.mem_map.mpr ⟨x, hx, Prod.ext hk hn⟩)
  unfold resolve
  rw [hnone]
  simp [hact, hgen]

/-- The handle of an existing connector names one of the kind it says. -/
theorem exists_resolve_of_lt (hplaces : c.connectors.map place = settings.places)
    (hact : c.isActive = true) (hgen : h.generation = c.generation)
    (hindex : h.index < settings.count h.kind) : ∃ x, c.resolve h = .ok x ∧ x.kind = h.kind := by
  have hplace : (h.kind, h.index) ∈ c.connectors.map place := by
    rw [hplaces]
    exact Settings.mem_places.mpr hindex
  obtain ⟨x, hx⟩ := (exists_resolve_iff hact hgen).mpr hplace
  exact ⟨x, hx, (named_of_resolve hx).1⟩

/-- Only composite connectors lack an ability that is asked for, apart from the one that every
connector lacks. -/
theorem HandleRequest.eq_or_of_lacking? {r : HandleRequest} {kind : Connector.Kind}
    {ability : Ability} (hlack : r.lacking? kind = some ability) :
    ((∃ enabled, r = .controlHdcp enabled) ∧ ability = .controlProtection) ∨
      (kind = .composite ∧ r.ability? = some ability) := by
  cases r with
  | controlHdcp enabled => exact .inl ⟨⟨enabled, rfl⟩, (Option.some.inj hlack).symm⟩
  | _ =>
    cases kind with
    | hdmi => exact absurd hlack (by simp [lacking?])
    | composite => exact .inr ⟨rfl, hlack⟩

/-- A request for which the connector lacks something is refused for it. -/
theorem performOn_of_lacking? {x : Connector} {r : HandleRequest} {ability : Ability}
    (hr : c.resolve h = .ok x) (hlack : r.lacking? x.kind = some ability) (fw : σ) :
    c.performOn fw h r = c.reading fw (.error (.unsupported ability)) := by
  rcases r.eq_or_of_lacking? hlack with ⟨⟨enabled, rfl⟩, rfl⟩ | ⟨hk, ha⟩
  · simp only [performOn, controlHdcp, hr]
    rfl
  · have hrefused : c.resolveHdmi h ability = .error (.unsupported ability) := by
      unfold resolveHdmi
      rw [hr]
      simp only [hk]
    exact performOn_of_resolveHdmi_error ha hrefused fw

/-- The order of the refusals is that in which a handle is resolved to a connector. -/
theorem refusal?_eq (hplaces : c.connectors.map place = settings.places) (r : HandleRequest) :
    settings.refusal? c h r =
      match c.resolve h with
      | .error e => some e
      | .ok x => (r.lacking? x.kind).map .unsupported := by
  unfold Settings.refusal?
  split
  next hidle => rw [resolve_of_inactive hidle]
  next hact =>
    have hact : c.isActive = true := (Bool.not_eq_false _).mp hact
    split
    next hgen => rw [resolve_of_stale hact hgen]
    next hgen =>
      have hgen : h.generation = c.generation := not_not.mp hgen
      split
      next hindex =>
        have hplace : (h.kind, h.index) ∉ c.connectors.map place := by
          rw [hplaces, Settings.mem_places]
          exact UInt8.not_lt.mpr hindex
        rw [resolve_of_missing hact hgen hplace]
      next hindex =>
        obtain ⟨x, hx, hk⟩ := exists_resolve_of_lt hplaces hact hgen (UInt8.not_le.mp hindex)
        rw [hx, ← hk]

/-- **A refused request does nothing**, over any firmware. -/
theorem performOn_of_refusal? (hplaces : c.connectors.map place = settings.places)
    {r : HandleRequest} {e : Error} (he : settings.refusal? c h r = some e) (fw : σ) :
    c.performOn fw h r = c.reading fw (.error e) := by
  rw [refusal?_eq hplaces] at he
  cases hr : c.resolve h with
  | error e' =>
    rw [hr] at he
    obtain rfl := Option.some.inj he
    exact performOn_of_resolve_error hr fw r
  | ok x =>
    rw [hr] at he
    obtain ⟨ability, hlack, rfl⟩ := Option.map_eq_some_iff.mp he
    exact performOn_of_lacking? hr hlack fw

/-- A request that is not refused is about an existing connector, which lacks nothing for it. -/
theorem exists_resolve_of_refusal?_eq_none (hplaces : c.connectors.map place = settings.places)
    {r : HandleRequest} (hnone : settings.refusal? c h r = none) :
    ∃ x, c.resolve h = .ok x ∧ r.lacking? x.kind = none := by
  rw [refusal?_eq hplaces] at hnone
  cases hr : c.resolve h with
  | error e =>
    rw [hr] at hnone
    exact absurd hnone (by simp)
  | ok x =>
    rw [hr] at hnone
    exact ⟨x, rfl, Option.map_eq_none_iff.mp hnone⟩

/-- How a request through a handle is judged, and what comes of it. -/
structure IsJudged (settings : Settings) (c : Controller) (fw : σ) (h : Handle)
    (r : HandleRequest) : Prop where
  /-- A request that is refused leaves the controller and the firmware alone, -/
  refused : ∀ e, settings.refusal? c h r = some e → c.performOn fw h r = c.reading fw (.error e)
  /-- and the firmware is not called. -/
  uncalled : ∀ e, settings.refusal? c h r = some e →
    (c.performOn (Watched.mk fw []) h r).firmware.notes = []
  /-- Any other request fails with the failure of the first call that failed, or, if none did, for a
  reason of its own. -/
  granted : settings.refusal? c h r = none →
    Mirrors (OwnError c fw r) (c.performOn (Watched.mk fw []) h r) (c.performOn fw h r)

/-- The judgement needs nothing of the state but the places of the connectors. -/
theorem isJudged_of_places (hplaces : c.connectors.map place = settings.places) (fw : σ)
    (h : Handle) (r : HandleRequest) : c.IsJudged settings fw h r := by
  refine ⟨fun e he => performOn_of_refusal? hplaces he fw, fun e he => ?_, fun hnone => ?_⟩
  · rw [performOn_of_refusal? hplaces he]
    rfl
  · obtain ⟨x, hx, hlack⟩ := exists_resolve_of_refusal?_eq_none hplaces hnone
    exact performOn_mirrors hx hlack fw

end Controller

namespace Assembly

variable {σ : Type} [Firmware σ]

/-- **Requests through handles are judged**, for valid settings, in every state that a controller
can reach, through any handle and over any firmware. The refusals say what is wrong with the handle,
and a mode without a resolution is reported like a failure of the firmware. -/
theorem request_judged {settings : Settings} (id : Connector.QueueId) (fw : σ)
    (hvalid : settings.check = .ok settings) :
    (∃ a, fresh id settings fw = .ok a ∧ ∀ steps (fw' : σ) h r,
      (a.run steps).controller.IsJudged settings fw' h r) ∧
    Error.staleHandle.messages = ["invalid parameter: stale port handle"] ∧
    Error.noConnector.messages = ["invalid parameter: no such video port"] ∧
    ∀ code, (Error.unmappedMode code).messages =
      (Error.firmware (Controller.unmappedFailure code)).messages := by
  obtain ⟨catalog, hfresh⟩ := fresh_of_check hvalid id fw
  refine ⟨⟨_, hfresh, fun steps fw' h r => ?_⟩, rfl, rfl, fun code => rfl⟩
  exact Controller.isJudged_of_places (places_run steps) fw' h r

/-- After a start a composite connector cannot tell its aspect ratio, and the HDMI connector cannot
either while the link is broken. -/
theorem judged_after_start :
    ∃ a, fresh 0 {} (⟨.fresh [] [4, 16] true, {}⟩ : Display) = .ok a ∧
      ∃ (c : Controller) (fw : Display), c = (a.run [.request .start]).controller ∧
        Settings.refusal? {} c ⟨.composite, 0, 1⟩ .aspect = some (.unsupported .tellAspect) ∧
        c.performOn fw ⟨.composite, 0, 1⟩ .aspect =
          c.reading fw (.error (.unsupported .tellAspect)) ∧
        firstFailure? (c.performOn (Watched.mk fw []) ⟨.hdmi, 0, 1⟩ .aspect).firmware.notes =
          some ⟨"no link"⟩ ∧
        (c.performOn fw ⟨.hdmi, 0, 1⟩ .aspect).result = .error (.firmware ⟨"no link"⟩) := by
  obtain ⟨⟨a, hfresh, hall⟩, -⟩ := request_judged 0
    (⟨.fresh [] [4, 16] true, {}⟩ : Display) (rfl : Settings.check {} = .ok {})
  obtain rfl := Except.ok.inj hfresh
  refine ⟨_, hfresh, _, ⟨.fresh [] [] true, { linkState := some "no link" }⟩, rfl, rfl, ?_, rfl, ?_⟩
  · exact (hall [.request .start] _ _ _).refused _ rfl
  · exact ((hall [.request .start] _ _ _).granted rfl).blames _ rfl

end Assembly

end VideoOutput
