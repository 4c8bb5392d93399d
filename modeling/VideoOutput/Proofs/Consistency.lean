import VideoOutput.Proofs.Rig

/-!
# Every reachable state is consistent

What holds of a controller after any run, whatever was asked of it and however the firmware failed:

* the connectors are those that the settings ask for, in their order;
* while the controller is inactive nothing is known about any connector and no callback is
  registered;
* while it is active no connector is uninitialized, a composite connector knows nothing beyond that,
  and only resolutions from the table are remembered.

`Consistent` collects this. `Effect.consistent` is the step: one case per effect of a request, over
every firmware. Over a display that this controller alone drives the service moreover runs exactly
while the controller is active, and announces to its queue then (`InService`).

The two are kept apart because they need different things. `Consistent` speaks of the controller
only, and holds over a firmware that answers as it likes. `InService` ties the controller to the
display, and for it the display's own behaviour is needed: a start that failed has not made it
active, and a failed question at a start is followed by an end of the service. A rig is consistent
if both hold, and since a fresh rig is (`exists_fresh_consistent`), so is every rig that a run
reaches (`run_consistent`).
-/

namespace VideoOutput

namespace Connector

/-- Nothing is known about the connector. -/
structure IsDormant (x : Connector) : Prop where
  state : x.state = .uninitialized
  enabled : x.enabled = false
  hdcp : x.hdcp = .unpowered
  requested : x.requested = none
  accepted : x.accepted = none

/-- What holds of a connector of an active controller. -/
structure IsLive (x : Connector) : Prop where
  state : x.state ≠ .uninitialized
  composite : x.kind = .composite →
    x.state = .ready ∧ x.hdcp = .unpowered ∧ x.requested = none ∧ x.accepted = none
  requested : ∀ r, x.requested = some r → r ∈ Mode.Resolution.advertised
  accepted : ∀ l, x.accepted = some l → l.Sublist Mode.Resolution.advertised

theorem isDormant_reset (x : Connector) : (x.reset .uninitialized).IsDormant :=
  ⟨rfl, rfl, rfl, rfl, rfl⟩

/-- A connector whose display is not asked about is live right after a start. -/
theorem isLive_reset {x : Connector} {state : State} (hs : state ≠ .uninitialized)
    (hc : x.kind = .composite → state = .ready) : (x.reset state).IsLive :=
  ⟨hs, fun hk => ⟨hc hk, rfl, rfl, rfl⟩, fun r hr => absurd hr (by simp [reset]),
    fun l hl => absurd hl (by simp [reset])⟩

/-- Of an HDMI connector no more is asked than a known state and resolutions from the table. -/
theorem IsLive.of_hdmi {x : Connector} (hk : x.kind = .hdmi) (hs : x.state ≠ .uninitialized)
    (hr : ∀ r, x.requested = some r → r ∈ Mode.Resolution.advertised)
    (ha : ∀ l, x.accepted = some l → l.Sublist Mode.Resolution.advertised) : x.IsLive :=
  ⟨hs, fun hc => absurd (hk.symm.trans hc) (by simp), hr, ha⟩

/-- An event keeps an HDMI connector live: it is connected or ready afterwards, or as it was. -/
theorem IsLive.apply {x : Connector} (hx : x.IsLive) (hk : x.kind = .hdmi) (event : Event) :
    (x.apply event).IsLive := by
  cases event with
  | connected =>
    exact .of_hdmi hk (by simp [Connector.apply]) hx.requested
      fun l hl => absurd hl (by simp [Connector.apply])
  | disconnected =>
    exact .of_hdmi hk (by simp [Connector.apply]) hx.requested
      fun l hl => absurd hl (by simp [Connector.apply])
  | sensed on => exact hx
  | hdcp status => exact .of_hdmi hk hx.state hx.requested hx.accepted

end Connector

namespace Controller

/-- What holds of a controller with these settings in every reachable state. -/
structure Consistent (settings : Settings) (c : Controller) : Prop where
  places : c.connectors.map place = settings.places
  table : c.catalog.resolutions = Mode.Resolution.advertised
  inactive : c.isActive = false →
    (∀ x ∈ c.connectors, x.IsDormant) ∧ c.displayCallback = none ∧ c.hdcpCallback = none
  active : c.isActive = true → ∀ x ∈ c.connectors, x.IsLive

variable {settings : Settings} {c : Controller}

theorem isDormant_connectorsOf {kind : Connector.Kind} {count : UInt8} {x : Connector}
    (hx : x ∈ connectorsOf kind count) : x.IsDormant := by
  obtain ⟨i, -, rfl⟩ := List.mem_map.mp hx
  exact ⟨rfl, rfl, rfl, rfl, rfl⟩

theorem consistent_initial {catalog : Mode.Catalog} (id : Connector.QueueId)
    (hcat : Mode.Catalog.withFallback settings.fallback = .ok catalog) :
    (initial id settings catalog).Consistent settings := by
  refine ⟨places_initial id settings catalog, Mode.Catalog.resolutions_of_withFallback hcat,
    fun _ => ⟨?_, rfl, rfl⟩, fun hact => absurd hact (by simp [initial])⟩
  intro x hx
  rcases List.mem_append.mp hx with hx | hx
  · exact isDormant_connectorsOf hx
  · exact isDormant_connectorsOf hx

/-! ## One lemma for each way a controller changes -/

/-- The places and the table stay what they are in a controller set up alike, so what is left to
show is what is known about the connectors. -/
theorem Consistent.of_sameSetup {c' : Controller} (h : c.Consistent settings)
    (hs : SameSetup c c')
    (hinactive : c'.isActive = false →
      (∀ x ∈ c'.connectors, x.IsDormant) ∧ c'.displayCallback = none ∧ c'.hdcpCallback = none)
    (hactive : c'.isActive = true → ∀ x ∈ c'.connectors, x.IsLive) : c'.Consistent settings :=
  ⟨hs.places.trans h.places, by rw [hs.catalog, h.table], hinactive, hactive⟩

/-- What is pushed waits in the queue and touches no connector. -/
theorem Consistent.push (h : c.Consistent settings) (notice : Connector.Notice) :
    (c.push notice).Consistent settings :=
  h.of_sameSetup (sameSetup_push c notice) h.inactive h.active

theorem Consistent.emptyQueue (h : c.Consistent settings) : c.emptyQueue.Consistent settings :=
  h.of_sameSetup (sameSetup_emptyQueue c) h.inactive h.active

/-- Changing the connector that a handle names, in an active controller. -/
theorem Consistent.modify (h : c.Consistent settings) (hact : c.isActive = true) (name : Handle)
    {change : Connector → Connector} (hplace : ∀ x, place (change x) = place x)
    (hlive : ∀ x : Connector, x.kind = name.kind → x.IsLive → (change x).IsLive) :
    (c.modify name change).Consistent settings := by
  have hact' : (c.modify name change).isActive = true := hact
  refine h.of_sameSetup (sameSetup_modify c name hplace) (fun hi => ?_) fun _ y hy => ?_
  · rw [hact'] at hi
    exact absurd hi (by simp)
  · obtain ⟨x, hx, rfl⟩ := List.mem_map.mp hy
    split
    next hn => exact hlive x (isNamedBy_iff.mp hn).1 (h.active hact x hx)
    next => exact h.active hact x hx

/-- A notice is about an HDMI connector, and keeps it live. -/
theorem Consistent.applyNotice (h : c.Consistent settings) (hact : c.isActive = true)
    (notice : Connector.Notice) : (c.applyNotice notice).Consistent settings :=
  h.modify hact _ (fun x => place_apply x notice.event) fun _ hk hx => hx.apply hk notice.event

/-- A notice is delivered only while the controller is active, and leaves it active. -/
theorem Consistent.dispatch (h : c.Consistent settings) : c.dispatch.1.Consistent settings := by
  -- the activity is carried along, since delivering was decided in the state before the dispatch
  have hboth : c.dispatch.1.Consistent settings ∧ c.dispatch.1.isActive = c.isActive := by
    refine dispatch_induction (P := fun c' => c'.Consistent settings ∧ c'.isActive = c.isActive)
      ⟨h.emptyQueue, rfl⟩ fun c' notice hd hc' => ?_
    have hact : c.isActive = true := by
      unfold delivers at hd
      exact (Bool.and_eq_true_iff.mp hd).1
    exact ⟨hc'.1.applyNotice (hc'.2.trans hact) notice, hc'.2⟩
  exact hboth.1

/-- No connector is uninitialized once the controller has started. -/
theorem startState_ne (isConnected : Bool) (x : Connector) :
    startState isConnected x ≠ .uninitialized := by
  unfold startState
  split <;> simp

/-- A composite connector is ready at once, as there is no link to ask about. -/
theorem startState_composite (isConnected : Bool) {x : Connector} (hk : x.kind = .composite) :
    startState isConnected x = .ready := by
  unfold startState
  rw [hk]

theorem Consistent.activated (h : c.Consistent settings) (isConnected : Bool) :
    (c.activated isConnected).Consistent settings := by
  refine h.of_sameSetup ⟨rfl, rfl, rfl, rfl, places_reset c.connectors _⟩
    (fun hi => absurd hi (by simp [Controller.activated])) fun _ y hy => ?_
  obtain ⟨x, -, rfl⟩ := List.mem_map.mp hy
  exact Connector.isLive_reset (startState_ne isConnected x) (startState_composite isConnected)

/-- After a stop all connectors are dormant and no callback is registered. -/
theorem Consistent.deactivated (h : c.Consistent settings) : c.deactivated.Consistent settings := by
  refine h.of_sameSetup ⟨rfl, rfl, rfl, rfl, places_reset c.connectors _⟩
    (fun _ => ⟨fun y hy => ?_, rfl, rfl⟩) fun hact => absurd hact (by simp [Controller.deactivated])
  obtain ⟨x, -, rfl⟩ := List.mem_map.mp hy
  exact Connector.isDormant_reset x

theorem Consistent.withCallback (h : c.Consistent settings) (hact : c.isActive = true)
    (id : CallbackId) (eventClass : Connector.EventClass) :
    (c.withCallback id eventClass).Consistent settings := by
  cases eventClass with
  | display =>
    exact h.of_sameSetup (sameSetup_withCallback c id .display)
      (fun hi => absurd (hact.symm.trans hi) (by simp)) h.active
  | hdcp =>
    exact h.of_sameSetup (sameSetup_withCallback c id .hdcp)
      (fun hi => absurd (hact.symm.trans hi) (by simp)) h.active

/-- **No request breaks the consistency of a controller**, whatever the firmware answers. -/
theorem Effect.consistent {σ : Type} [Firmware σ] {c' : Controller} {fw fw' : σ} {r : Request}
    {answer : Except Error Answer} (he : Effect c fw r answer c' fw')
    (h : c.Consistent settings) : c'.Consistent settings := by
  cases he with
  | refused | asked | startRefused | switchRefused | modeRefused => exact h
  | linkRefused => exact h.emptyQueue
  | started => exact h.emptyQueue.activated _
  | stopped => exact h.deactivated
  | switched hr =>
    exact h.modify (isActive_of_resolve hr) _ (fun _ => rfl) fun x _ hx =>
      ⟨hx.state, hx.composite, hx.requested, hx.accepted⟩
  | modeSet hr hk =>
    have hname := (named_of_resolve hr).1.symm.trans hk
    refine h.modify (isActive_of_resolve hr) _ (fun _ => rfl) fun x hx hlive => ?_
    refine .of_hdmi (hx.trans hname) hlive.state (fun r hres => ?_) hlive.accepted
    -- what is stored is not the requested name but what the catalog makes of its code
    rw [← h.table]
    exact Mode.Catalog.mem_of_resolutionOf? hres
  | forgotten _ hr hk =>
    have hname := (named_of_resolve hr).1.symm.trans hk
    refine h.modify (isActive_of_resolve hr) _ (fun _ => rfl) fun x hx hlive => ?_
    exact .of_hdmi (hx.trans hname) hlive.state hlive.requested fun l hl => absurd hl (by simp)
  | remembered _ codes _ hr hk =>
    have hname := (named_of_resolve hr).1.symm.trans hk
    refine h.modify (isActive_of_resolve hr) _ (fun _ => rfl) fun x hx hlive => ?_
    refine .of_hdmi (hx.trans hname) hlive.state hlive.requested fun l hl => ?_
    rw [← h.table, ← Option.some.inj hl]
    exact Mode.Catalog.accepted_sublist c.catalog codes
  | registered hact => exact h.withCallback hact _ _
  | dispatched => exact h.dispatch

/-! ## The service behind the controller -/

/-- The service runs exactly while the controller is active, and announces to its queue then. -/
structure InService (c : Controller) (display : Display) : Prop where
  running : display.inner.isActive = c.isActive
  attached : display.inner.attached = if c.isActive then some c.queueId else none

/-- A change that touches neither the service nor the activity of the controller. -/
theorem InService.of_eq {c c' : Controller} {display display' : Display}
    (h : InService c display) (hact : c'.isActive = c.isActive) (hid : c'.queueId = c.queueId)
    (hrun : display'.inner.isActive = display.inner.isActive)
    (hatt : display'.inner.attached = display.inner.attached) : InService c' display' := by
  refine ⟨?_, ?_⟩
  · rw [hrun, hact, h.running]
  · rw [hatt, hact, hid, h.attached]

/-- Every effect of a request keeps the display in step with the controller. -/
theorem Effect.inService {c c' : Controller} {display display' : Display} {r : Request}
    {answer : Except Error Answer} (he : Effect c display r answer c' display')
    (h : InService c display) : InService c' display' := by
  cases he with
  | refused => exact h
  | asked _ _ ha => rw [Display.eq_of_asked ha]; exact h
  | startRefused _ hs => rw [Display.start_of_error hs]; exact h
  | linkRefused hact hs _ =>
    -- the service was started and attached, and is stopped again
    refine ⟨?_, ?_⟩
    · exact hact.symm
    · show none = if c.isActive then some c.queueId else none
      rw [hact]
      rfl
  | started _ hs _ =>
    rw [Display.askedAtStart_state hs]
    exact ⟨rfl, rfl⟩
  | stopped => exact ⟨rfl, rfl⟩
  | switchRefused _ ha => rw [Display.setEnabled_of_error ha]; exact h
  | @switched name _ _ _ ha =>
    rw [Display.setEnabled_of_ok ha]
    cases name.kind <;> exact h.of_eq rfl rfl rfl rfl
  | modeRefused _ _ ha => rw [Display.setMode_of_error ha]; exact h
  | modeSet _ _ ha =>
    rw [Display.setMode_of_ok ha]
    exact h.of_eq rfl rfl rfl rfl
  | forgotten _ _ _ ha =>
    rw [Display.eq_of_asked ha]
    exact h.of_eq rfl rfl rfl rfl
  | remembered _ _ _ _ _ ha =>
    rw [Display.eq_of_asked ha]
    exact h.of_eq rfl rfl rfl rfl
  | @registered eventClass => cases eventClass <;> exact h.of_eq rfl rfl rfl rfl
  | dispatched =>
    exact h.of_eq (isActive_dispatch c) (sameSetup_dispatch c).queueId rfl rfl

end Controller

/-! ## Runs -/

namespace Rig

variable {settings : Settings} {rig : Rig}

/-- What holds of a controller and the display that it alone drives, in every reachable state. -/
structure Consistent (settings : Settings) (rig : Rig) : Prop where
  controller : rig.controller.Consistent settings
  service : Controller.InService rig.controller rig.display

theorem Consistent.announce (h : rig.Consistent settings) (index : UInt8)
    (event : Connector.Event) : (rig.announce index event).Consistent settings :=
  announce_induction h (fun _ => ⟨h.controller.push _, h.service.of_eq rfl rfl rfl rfl⟩) index event

theorem Consistent.step (h : rig.Consistent settings) (s : Step) :
    (rig.step s).Consistent settings := by
  cases s with
  | request request =>
    have he := Controller.perform_isEffect rig.controller rig.display request
    exact ⟨he.consistent h.controller, he.inService h.service⟩
  | push notice => exact ⟨h.controller.push notice, h.service.of_eq rfl rfl rfl rfl⟩
  | drain => exact ⟨h.controller.emptyQueue, h.service.of_eq rfl rfl rfl rfl⟩
  | hotplug isConnected =>
    have hplug : (rig.changeSimulator fun sim => sim.plugged isConnected).Consistent settings :=
      ⟨h.controller, h.service.of_eq rfl rfl rfl rfl⟩
    exact hplug.announce 0 _
  | reportHdcp status => exact h.announce 0 _
  | replaceDisplay | setFailing | setFaults =>
    exact ⟨h.controller, h.service.of_eq rfl rfl rfl rfl⟩

theorem Consistent.run (h : rig.Consistent settings) (steps : List Step) :
    (rig.run steps).Consistent settings :=
  run_invariant (fun _ s hr => hr.step s) steps h

/-- For valid settings there is a controller, and it is consistent with a display that was never
used. -/
theorem exists_fresh_consistent (id : Connector.QueueId) (blob : List UInt8)
    (modes : List Mode.ModeCode) (isConnected : Bool) (hvalid : settings.check = .ok settings) :
    ∃ rig, fresh id settings (.fresh blob modes isConnected) = .ok rig ∧
      rig.Consistent settings := by
  obtain ⟨catalog, hcat, hfresh⟩ := fresh_of_check hvalid id (.fresh blob modes isConnected)
  exact ⟨_, hfresh, Controller.consistent_initial id hcat, ⟨rfl, rfl⟩⟩

/-- **Every reachable state is consistent**: for valid settings a controller can be made over a
display that was never used, and after any run of requests, events, display changes and faults the
state of the two is consistent. -/
theorem run_consistent (id : Connector.QueueId) (blob : List UInt8) (modes : List Mode.ModeCode)
    (isConnected : Bool) (hvalid : settings.check = .ok settings) :
    ∃ rig, fresh id settings (.fresh blob modes isConnected) = .ok rig ∧
      ∀ steps, (rig.run steps).Consistent settings := by
  obtain ⟨rig, hfresh, hrig⟩ := exists_fresh_consistent id blob modes isConnected hvalid
  exact ⟨rig, hfresh, hrig.run⟩

/-- A start that fails half-way, a second one, and a requested resolution that outlasts the
display. -/
theorem consistent_after_failed_start :
    ∃ rig, fresh 0 {} (.fresh [] [4, 16] true) = .ok rig ∧
      ∃ steps, (rig.run steps).controller.isActive = true ∧
        (∃ r, (rig.run steps).controller.requested ⟨.hdmi, 0, 1⟩ = .ok (some r)) ∧
        (rig.run steps).Consistent {} := by
  obtain ⟨rig, hfresh, hall⟩ := @run_consistent {} 0 [] [4, 16] true rfl
  obtain rfl := Except.ok.inj hfresh
  refine ⟨_, hfresh, [.setFaults { linkState := some "no link" }, .request .start, .setFaults {},
    .request .start, .request (.on ⟨.hdmi, 0, 1⟩ (.setResolution "720p")), .hotplug false,
    .request .dispatch], rfl, ⟨_, rfl⟩, hall _⟩

end Rig

end VideoOutput
