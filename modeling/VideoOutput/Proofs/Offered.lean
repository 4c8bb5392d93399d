import VideoOutput.Proofs.InUse
import VideoOutput.Proofs.Remembered

/-!
# What is offered can be set

The resolutions that a display offers are found by code: the firmware lists mode codes, and the
catalog picks the resolutions whose code is among them. A resolution is set by name: the catalog
turns the name into a code, and the display refuses codes that it does not list. The two agree, so
whatever a connector has just listed can be set, and is then in use (`Lists.canBeSet`); and every
code of the display that has a name is listed under it (`Lists.exists_of_row`).

Only fresh lists count. A list that the connector remembers may be of an earlier display.

There are two requests that tell a list, and both count: one asks for the accepted resolutions, the
other reads the identity, which comes with them. Setting is then promised for a display in order,
one whose calls have no fault. Nothing is promised in between: after the list was told the display
may be unplugged or exchanged, so `CanBeSet` is stated of the rig right after the request. Its
converse needs a name, since a code of the display without one can be offered by its geometry but
not be requested.
-/

namespace VideoOutput

namespace Controller

variable {σ : Type} [Firmware σ] {c : Controller} {h : Handle}

/-- A question, or a reading of the identification data, leaves the display alone. -/
theorem Effect.eq_display {c' : Controller} {display display' : Display} {r : HandleRequest}
    {answer : Except Error Answer} (he : Effect c display (.on h r) answer c' display')
    (hr : r.isQuestion = true ∨ ∃ currentYear, r = .readIdentity currentYear) :
    display' = display := by
  cases he with
  | refused => rfl
  | asked _ _ ha | forgotten _ _ _ ha | remembered _ _ _ _ _ ha => exact Display.eq_of_asked ha
  | switchRefused | switched | modeRefused | modeSet =>
    exact absurd hr (by simp [HandleRequest.isQuestion])

/-- What needs an ability and is answered was asked of an HDMI connector. -/
theorem resolve_of_performOn {fw : σ} {r : HandleRequest} {ability : Ability} {answer : Answer}
    (ha : r.ability? = some ability) (hok : (c.performOn fw h r).result = .ok answer) :
    ∃ x, c.resolve h = .ok x ∧ x.kind = .hdmi := by
  cases hr : c.resolveHdmi h ability with
  | ok x => exact ⟨x, resolveHdmi_eq_ok_iff.mp hr⟩
  | error e =>
    rw [performOn_of_resolveHdmi_error ha hr] at hok
    exact absurd hok (by simp [reading])

/-- A resolution is set if the connector is an HDMI connector and the firmware takes the mode. -/
theorem setResolution_of_ok {fw : σ} {name : String} {x : Connector} (hr : c.resolve h = .ok x)
    (hk : x.kind = .hdmi) (ha : (Firmware.setMode (c.catalog.codeOf name) fw).answer = .ok ()) :
    (c.setResolution fw h name).result = .ok () := by
  unfold setResolution
  rw [resolveHdmi_eq_ok_iff.mpr ⟨hr, hk⟩]
  dsimp only
  rw [ha]

/-- What a display offers are the resolutions of its codes, if it is attached. -/
theorem mem_offer_iff {display : Display} {fallback : String} {r : Mode.Resolution}
    (hcat : Mode.Catalog.withFallback fallback = .ok c.catalog) :
    r ∈ c.offer display ↔ display.inner.isConnected = true ∧ r ∈ Mode.Resolution.advertised ∧
      ∃ code ∈ display.inner.modes, ⟨r.name, code⟩ ∈ Mode.Catalog.platformModes := by
  obtain ⟨hresolutions, hmodes, hconsistent, -⟩ := Mode.Catalog.withFallback_eq_ok_iff.mp hcat
  unfold offer
  by_cases hconnected : display.inner.isConnected = true
  · rw [if_pos hconnected, Mode.Catalog.mem_accepted_iff hconsistent, hresolutions, hmodes]
    simp only [hconnected, true_and]
  · rw [if_neg hconnected]
    simp [hconnected]

end Controller

namespace Rig

variable {settings : Settings} {rig : Rig} {h : Handle} {request : Controller.HandleRequest}
  {list : List Mode.Resolution}

/-- The request lists resolutions that were asked for anew: it reads the identification data, or it
asks what is accepted while the connector remembers nothing. -/
inductive Lists (rig : Rig) (h : Handle) :
    Controller.HandleRequest → List Mode.Resolution → Prop where
  | identity {currentYear : Nat} {identity : Edid.Identity}
      (ha : rig.answer (.on h (.readIdentity currentYear)) = .ok (.identity identity)) :
      Lists rig h (.readIdentity currentYear) identity.resolutions
  | accepted {x : Connector} {list : List Mode.Resolution}
      (hr : rig.controller.resolve h = .ok x) (hnew : x.accepted = none)
      (ha : rig.answer (.on h .accepted) = .ok (.resolutions list)) : Lists rig h .accepted list

/-- A fresh list is what the display offers. -/
theorem Lists.eq_offer (hl : rig.Lists h request list) :
    list = rig.controller.offer rig.display := by
  cases hl with
  | identity ha =>
    obtain ⟨identity, hresult, heq⟩ := Controller.exists_of_map_eq_ok ha
    obtain rfl := Controller.Answer.identity.inj heq
    exact Controller.resolutions_of_readIdentity hresult
  | accepted hr hnew ha =>
    obtain ⟨list, hresult, heq⟩ := Controller.exists_of_map_eq_ok ha
    obtain rfl := Controller.Answer.resolutions.inj heq
    obtain ⟨y, hy, hknown | hoffer⟩ := Controller.accepted_of_ok hresult
    · obtain rfl := Except.ok.inj (hr.symm.trans hy)
      exact absurd (hnew.symm.trans hknown) (by simp)
    · exact hoffer

/-- Who is told a list holds a handle of an HDMI connector. -/
theorem Lists.resolve (hl : rig.Lists h request list) :
    ∃ x, rig.controller.resolve h = .ok x ∧ x.kind = .hdmi := by
  cases hl with
  | identity ha => exact Controller.resolve_of_performOn (r := .readIdentity _) rfl ha
  | accepted _ _ ha => exact Controller.resolve_of_performOn (r := .accepted) rfl ha

theorem Lists.display_step (hl : rig.Lists h request list) :
    (rig.step (.request (.on h request))).display = rig.display := by
  have he := Controller.perform_isEffect rig.controller rig.display (.on h request)
  have hasks : request.isQuestion = true ∨ ∃ currentYear, request = .readIdentity currentYear := by
    cases hl with
    | identity => exact .inr ⟨_, rfl⟩
    | accepted => exact .inl rfl
  exact he.eq_display hasks

/-- A resolution can be set at a connector, by which the display comes into a mode that it accepts,
and the resolution is told to be in use then. -/
structure CanBeSet (rig : Rig) (h : Handle) (r : Mode.Resolution) : Prop where
  done : rig.answer (.on h (.setResolution r.name)) = .ok .done
  mode : (rig.step (.request (.on h (.setResolution r.name)))).display.inner.mode ∈
    rig.display.inner.modes
  resolution : (rig.step (.request (.on h (.setResolution r.name)))).answer (.on h .resolution) =
    .ok (.resolution r)
  requested : (rig.step (.request (.on h (.setResolution r.name)))).answer (.on h .requested) =
    .ok (.requested (some r))

/-- A display in order takes what it offers. -/
theorem canBeSet_of_mem_offer {r : Mode.Resolution} (hc : rig.Consistent settings)
    (hcat : Mode.Catalog.withFallback settings.fallback = .ok rig.controller.catalog)
    (horder : rig.display.IsInOrder) (hx : ∃ x, rig.controller.resolve h = .ok x ∧ x.kind = .hdmi)
    (hoffer : r ∈ rig.controller.offer rig.display) : rig.CanBeSet h r := by
  obtain ⟨-, hr, code, hcode, hrow⟩ := (Controller.mem_offer_iff hcat).mp hoffer
  obtain ⟨x, hx, hk⟩ := hx
  have hrunning : rig.display.inner.isActive = true :=
    hc.service.running.trans (Controller.isActive_of_resolve hx)
  -- the code that the name is turned into is the one that the resolution was listed for
  obtain ⟨-, hmodes, hconsistent, -⟩ := Mode.Catalog.withFallback_eq_ok_iff.mp hcat
  rw [← hmodes] at hrow
  have hcodeOf : rig.controller.catalog.codeOf r.name = code :=
    Mode.Catalog.codeOf_of_mem hconsistent hrow
  have htaken := horder.setMode hrunning hcode
  rw [← hcodeOf] at htaken
  have hset : rig.answer (.on h (.setResolution r.name)) = .ok .done :=
    congrArg (Except.map fun _ => Controller.Answer.done)
      (Controller.setResolution_of_ok hx hk htaken)
  have huse := isInUse_of_setResolution hr hcat hset
  have hcat' := withFallback_run hcat [.request (.on h (.setResolution r.name))]
  have hlink : (Firmware.linkState
      (rig.step (.request (.on h (.setResolution r.name)))).display).answer =
        .ok (rig.step (.request (.on h (.setResolution r.name)))).display.inner.currentLink := by
    rw [(step_setResolution hset).2]
    have horder' : (rig.display.changed fun sim =>
        { sim with mode := rig.controller.catalog.codeOf r.name }).IsInOrder :=
      ⟨horder.faults, horder.responding⟩
    exact horder'.linkState hrunning
  refine ⟨hset, ?_, huse.answer_resolution hr hcat' hlink, (huse.tells hr hcat').requested⟩
  rw [(step_setResolution hset).2]
  show rig.controller.catalog.codeOf r.name ∈ rig.display.inner.modes
  rw [hcodeOf]
  exact hcode

/-- Everything on a fresh list can be set next. -/
theorem Lists.canBeSet (hl : rig.Lists h request list) (hc : rig.Consistent settings)
    (hcat : Mode.Catalog.withFallback settings.fallback = .ok rig.controller.catalog)
    (horder : rig.display.IsInOrder) {r : Mode.Resolution} (hr : r ∈ list) :
    (rig.step (.request (.on h request))).CanBeSet h r := by
  have hcat' := withFallback_run hcat [.request (.on h request)]
  have hdisplay := hl.display_step
  rw [hl.eq_offer] at hr
  obtain ⟨x, hx, hk⟩ := hl.resolve
  obtain ⟨y, hy⟩ := exists_resolve_step (s := .request (.on h request)) ⟨x, hx⟩ (by simp)
  have hky : y.kind = .hdmi :=
    (Controller.named_of_resolve hy).1.trans ((Controller.named_of_resolve hx).1.symm.trans hk)
  refine canBeSet_of_mem_offer (hc.step _) hcat' ?_ ⟨y, hy, hky⟩ ?_
  · rw [hdisplay]
    exact horder
  · rw [Controller.mem_offer_iff hcat] at hr
    rw [hdisplay, Controller.mem_offer_iff (c := (rig.step _).controller) hcat']
    exact hr

/-- Every mode of an attached display that has a name is listed under it. -/
theorem Lists.exists_of_row (hl : rig.Lists h request list)
    (hcat : Mode.Catalog.withFallback settings.fallback = .ok rig.controller.catalog)
    (hconnected : rig.display.inner.isConnected = true) {row : Mode.ModeRow}
    (hrow : row ∈ Mode.Catalog.platformModes) (hcode : row.code ∈ rig.display.inner.modes) :
    ∃ r ∈ list, r.name = row.name := by
  obtain ⟨hresolutions, hmodes, hconsistent, -⟩ := Mode.Catalog.withFallback_eq_ok_iff.mp hcat
  have hknown := hconsistent.known row (hmodes ▸ hrow)
  rw [hresolutions] at hknown
  obtain ⟨r, hr, hname⟩ := List.mem_map.mp hknown
  refine ⟨r, ?_, hname⟩
  rw [hl.eq_offer, Controller.mem_offer_iff hcat]
  refine ⟨hconnected, hr, row.code, hcode, ?_⟩
  rw [hname]
  exact hrow

/-- **What is offered can be set.** Take valid settings, a display that was never used, and any run of
the controller that drives it, with any displays and whatever modes they list. When the run ends with
a display in order, and a connector lists resolutions that it has not remembered, each of them can be
set right afterwards: the request succeeds, the display comes into a mode that it accepts, and this
resolution is told as the one requested and the one in use. And if the display is attached, every
mode of it that has a name is listed under this name. -/
theorem offered_canBeSet {settings : Settings} (id : Connector.QueueId) (blob : List UInt8)
    (modes : List Mode.ModeCode) (isConnected : Bool) (hvalid : settings.check = .ok settings) :
    ∃ rig, fresh id settings (.fresh blob modes isConnected) = .ok rig ∧
      ∀ steps, (rig.run steps).display.IsInOrder →
        ∀ h request list, (rig.run steps).Lists h request list →
          (∀ r ∈ list, (rig.run (steps ++ [.request (.on h request)])).CanBeSet h r) ∧
          ((rig.run steps).display.inner.isConnected = true →
            ∀ row ∈ Mode.Catalog.platformModes, row.code ∈ (rig.run steps).display.inner.modes →
              ∃ r ∈ list, r.name = row.name) := by
  obtain ⟨rig, hfresh, hc, hcat⟩ := exists_fresh_withFallback id blob modes isConnected hvalid
  refine ⟨rig, hfresh, ?_⟩
  intro steps horder h request list hl
  have hcat' := withFallback_run hcat steps
  constructor
  · intro r hr
    rw [run_append]
    exact hl.canBeSet (hc.run steps) hcat' horder hr
  · intro hconnected row hrow hcode
    exact hl.exists_of_row hcat' hconnected hrow hcode

/-- After an exchange that the connector was told of, the new display can be set to both of its
resolutions, although it lists one mode twice and another that has no name. -/
theorem canBeSet_after_exchange :
    ∃ rig, fresh 0 {} (.fresh [] [4] true) = .ok rig ∧
      ∃ (steps : List Step) (list : List Mode.Resolution),
        (rig.run steps).display.inner.modes = [300, 16, 34, 16] ∧
        list.map Mode.Resolution.name = ["1080p30", "1080p60"] ∧
        (∀ r ∈ list, (rig.run (steps ++ [.request (.on ⟨.hdmi, 0, 1⟩ .accepted)])).CanBeSet
          ⟨.hdmi, 0, 1⟩ r) ∧
        ∃ r ∈ list, r.name = "1080p60" := by
  obtain ⟨rig, hfresh, hall⟩ := @offered_canBeSet {} 0 [] [4] true rfl
  obtain rfl := Except.ok.inj hfresh
  obtain ⟨hset, hnamed⟩ := hall [.request .start, .request (.on ⟨.hdmi, 0, 1⟩ .accepted),
    .hotplug false, .replaceDisplay [] [300, 16, 34, 16], .hotplug true, .request .dispatch]
    ⟨rfl, rfl⟩ ⟨.hdmi, 0, 1⟩ .accepted _ (.accepted rfl rfl rfl)
  exact ⟨_, hfresh, _, _, rfl, rfl, hset, hnamed rfl ⟨"1080p60", 16⟩ (by decide) (by decide)⟩

end Rig

end VideoOutput
