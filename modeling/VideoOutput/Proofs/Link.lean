import VideoOutput.Proofs.Consistency
import VideoOutput.Proofs.Handles
import VideoOutput.Proofs.Overflow
import VideoOutput.Proofs.Waiting

/-!
# What the controller knows of the link

Whether a display is attached is kept twice: in the display, where it changes at once, and as the
state of the first HDMI connector, which changes when the notice of it is dispatched. The two differ
by what waits in the queue: the state of the connector after the waiting notices is the state of the
link (`TracksLink`). A start establishes this, because it asks for the link after it has emptied the
queue; plugging changes both sides at once, because the queue is attached while the controller is
active; a dispatch only moves notices from the queue into the state.

A dropped notice breaks it until the next start, and so would a notice that is none of the display's
or a drain past the controller. `state_afterAll_iff_isConnected` is the statement for all other runs.
-/

namespace VideoOutput

namespace Display

/-- The same sink is at the link, and it is attached to both or to none. -/
structure SameSink (display display' : Display) : Prop where
  isConnected : display'.inner.isConnected = display.inner.isConnected
  blob : display'.inner.blob = display.inner.blob
  modes : display'.inner.modes = display.inner.modes

end Display

namespace Controller

/-- No request plugs a display or exchanges it. -/
theorem Effect.sameSink {c c' : Controller} {display display' : Display} {r : Request}
    {answer : Except Error Answer} (he : Effect c display r answer c' display') :
    display.SameSink display' := by
  cases he with
  | refused | registered | dispatched | stopped => exact ⟨rfl, rfl, rfl⟩
  | asked _ _ ha | forgotten _ _ _ ha | remembered _ _ _ _ _ ha =>
    rw [Display.eq_of_asked ha]
    exact ⟨rfl, rfl, rfl⟩
  | startRefused _ hs =>
    rw [Display.start_of_error hs]
    exact ⟨rfl, rfl, rfl⟩
  | linkRefused _ hs _ | started _ hs _ =>
    rw [Display.askedAtStart_state hs]
    exact ⟨rfl, rfl, rfl⟩
  | switchRefused _ ha =>
    rw [Display.setEnabled_of_error ha]
    exact ⟨rfl, rfl, rfl⟩
  | @switched name _ _ _ ha =>
    rw [Display.setEnabled_of_ok ha]
    cases name.kind <;> exact ⟨rfl, rfl, rfl⟩
  | modeRefused _ _ ha =>
    rw [Display.setMode_of_error ha]
    exact ⟨rfl, rfl, rfl⟩
  | modeSet _ _ ha =>
    rw [Display.setMode_of_ok ha]
    exact ⟨rfl, rfl, rfl⟩

/-! ## Tracking the link -/

/-- The first HDMI connector will be connected, once the waiting notices are applied, exactly if a
display is attached. -/
def TracksLink (isConnected : Bool) (c : Controller) : Prop :=
  ∀ x ∈ c.connectors, x.kind = .hdmi → x.index = 0 →
    (x.state.afterAll 0 c.queue.waiting = .connected ↔ isConnected = true)

variable {c : Controller} {isConnected : Bool}

/-- A change that leaves place and state of each connector alone does not matter. -/
theorem TracksLink.modify (h : c.TracksLink isConnected) (name : Handle)
    {change : Connector → Connector} (hplace : ∀ x, place (change x) = place x)
    (hstate : ∀ x, (change x).state = x.state) : (c.modify name change).TracksLink isConnected := by
  intro y hy hk hi
  obtain ⟨x, hx, ⟨-, rfl⟩ | rfl⟩ := exists_of_mem_modify hy
  · have hk' : x.kind = .hdmi := (congrArg Prod.fst (hplace x)).symm.trans hk
    have hi' : x.index = 0 := (congrArg Prod.snd (hplace x)).symm.trans hi
    rw [hstate x]
    exact h x hx hk' hi'
  · exact h y hx hk hi

/-- A notice that a display came or went has the last word. -/
theorem tracksLink_push_hotplug (c : Controller) (isConnected : Bool)
    (hroom : c.queue.overflow ⟨0, Firmware.Simulator.hotplugEvent isConnected⟩ = []) :
    (c.push ⟨0, Firmware.Simulator.hotplugEvent isConnected⟩).TracksLink isConnected := by
  intro x _ _ _
  have hwaiting := Connector.Queue.waiting_push_of_overflow hroom
  show x.state.afterAll 0 (c.queue.push ⟨0, Firmware.Simulator.hotplugEvent isConnected⟩).waiting =
    .connected ↔ isConnected = true
  rw [hwaiting, Connector.State.afterAll_append]
  cases isConnected with
  | true => exact ⟨fun _ => rfl, fun _ => rfl⟩
  | false =>
    refine ⟨fun hs => ?_, fun hs => absurd hs Bool.false_ne_true⟩
    exact absurd hs (by simp [Connector.State.afterAll, Connector.State.after,
      Firmware.Simulator.hotplugEvent])

/-- A notice about content protection does not matter. -/
theorem TracksLink.push_hdcp (h : c.TracksLink isConnected) {status : Connector.Hdcp}
    (hroom : c.queue.overflow ⟨0, .hdcp status⟩ = []) :
    (c.push ⟨0, .hdcp status⟩).TracksLink isConnected := by
  intro x hx hk hi
  have hwaiting := Connector.Queue.waiting_push_of_overflow hroom
  show x.state.afterAll 0 (c.queue.push ⟨0, .hdcp status⟩).waiting = .connected ↔ isConnected = true
  rw [hwaiting, Connector.State.afterAll_append]
  exact h x hx hk hi

/-- A dispatch moves the waiting notices into the states. -/
theorem TracksLink.dispatch (h : c.TracksLink isConnected) (hact : c.isActive = true) :
    c.dispatch.1.TracksLink isConnected := by
  intro y hy hk hi
  rw [dispatch_eq hact] at hy ⊢
  obtain ⟨x, hx, rfl⟩ := List.mem_map.mp hy
  have hplace := Connector.place_applyAll x c.queue.waiting
  have hk' : x.kind = .hdmi := (congrArg Prod.fst hplace).symm.trans hk
  have hi' : x.index = 0 := (congrArg Prod.snd hplace).symm.trans hi
  show (x.applyAll c.queue.waiting).state = .connected ↔ isConnected = true
  rw [Connector.state_applyAll hk', hi']
  exact h x hx hk' hi'

/-- A start finds nothing in the queue and sets the state to what it was told. -/
theorem tracksLink_activated (c : Controller) (isConnected : Bool) :
    (c.emptyQueue.activated isConnected).TracksLink isConnected := by
  intro y hy hk _
  obtain ⟨x, -, rfl⟩ := List.mem_map.mp hy
  have hk' : x.kind = .hdmi := hk
  show startState isConnected x = .connected ↔ isConnected = true
  unfold startState
  rw [hk']
  cases isConnected <;> simp

/-- Within a cycle every effect of a request keeps what is known of the link. -/
theorem Effect.tracksLink {c' : Controller} {display display' : Display} {r : Request}
    {answer : Except Error Answer} (he : Effect c display r answer c' display')
    (hact : c.isActive = true) (hstop : r ≠ .stop) (h : c.TracksLink isConnected) :
    c'.TracksLink isConnected := by
  cases he with
  | refused | asked | switchRefused | modeRefused => exact h
  | startRefused hidle | linkRefused hidle | started hidle =>
    exact absurd (hact.symm.trans hidle) (by simp)
  | stopped => exact absurd rfl hstop
  | switched | modeSet | forgotten | remembered => exact h.modify _ (fun _ => rfl) fun _ => rfl
  | @registered eventClass => cases eventClass <;> exact h
  | dispatched => exact h.dispatch hact

/-- A start that succeeds learns the state of the link. -/
theorem Effect.tracksLink_of_start {c' : Controller} {display display' : Display}
    {answer : Except Error Answer} (he : Effect c display .start answer c' display')
    (hhdmi : c.hasHdmi = true) (hidle : c.isActive = false) (hact : c'.isActive = true) :
    c'.TracksLink display.inner.isConnected := by
  cases he with
  | refused | startRefused | linkRefused => exact absurd (hidle.symm.trans hact) (by simp)
  | asked _ hq => exact absurd hq (by simp [Request.isQuestion])
  | started _ hs hl =>
    rw [← Display.askedAtStart_of_ok hhdmi hs hl]
    exact tracksLink_activated c _

theorem hasHdmi_of_places {settings : Settings} (hplaces : c.connectors.map place = settings.places)
    (hhdmi : 0 < settings.hdmiCount) : c.hasHdmi = true := by
  have hmem : (Connector.Kind.hdmi, (0 : UInt8)) ∈ c.connectors.map place := by
    rw [hplaces]
    exact Settings.mem_places.mpr hhdmi
  obtain ⟨x, hx, hplace⟩ := List.mem_map.mp hmem
  refine List.any_eq_true.mpr ⟨x, hx, beq_iff_eq.mpr ?_⟩
  exact congrArg Prod.fst hplace

/-- While the controller is active, the first HDMI connector has a handle that is accepted. -/
theorem exists_handle_zero {settings : Settings} (hplaces : c.connectors.map place = settings.places)
    (hhdmi : 0 < settings.hdmiCount) (hact : c.isActive = true) :
    ∃ h x, c.handle .hdmi 0 = .ok h ∧ c.resolve h = .ok x ∧ x.kind = .hdmi ∧ x.index = 0 := by
  have hmem : (Connector.Kind.hdmi, (0 : UInt8)) ∈ c.connectors.map place := by
    rw [hplaces]
    exact Settings.mem_places.mpr hhdmi
  obtain ⟨x, hx⟩ := (exists_resolve_iff (h := ⟨.hdmi, 0, c.generation⟩) hact rfl).mpr hmem
  obtain ⟨hk, hi⟩ := named_of_resolve hx
  exact ⟨_, x, handle_eq_ok_iff.mpr ⟨rfl, hact, hmem⟩, hx, hk, hi⟩

end Controller

/-! ## Runs -/

namespace Rig

variable {settings : Settings} {rig : Rig}

/-- A fresh rig is not active, so its first cycle begins with a start. -/
theorem isActive_of_fresh {id : Connector.QueueId} {sim : Firmware.Simulator}
    (hvalid : settings.check = .ok settings) (hfresh : fresh id settings sim = .ok rig) :
    rig.controller.isActive = false := by
  obtain ⟨catalog, -, hmade⟩ := fresh_of_check hvalid id sim
  rw [Except.ok.inj (hfresh.symm.trans hmade)]
  rfl

/-- While the controller is active its queue is attached, so it gets what is announced. -/
theorem Consistent.announced? (h : rig.Consistent settings) (hact : rig.controller.isActive = true)
    (index : UInt8) (event : Connector.Event) :
    rig.announced? index event = some ⟨index, event⟩ := by
  unfold Rig.announced?
  rw [h.service.attached, if_pos hact, if_pos rfl]

/-- In a cycle a display that is plugged pushes a notice of it. -/
theorem Consistent.step_hotplug (h : rig.Consistent settings)
    (hact : rig.controller.isActive = true) (isConnected : Bool) :
    rig.step (.hotplug isConnected) =
        ⟨rig.controller.push ⟨0, Firmware.Simulator.hotplugEvent isConnected⟩,
          rig.display.changed fun sim => sim.plugged isConnected⟩ ∧
      rig.droppedBy (.hotplug isConnected) =
        rig.controller.queue.overflow ⟨0, Firmware.Simulator.hotplugEvent isConnected⟩ := by
  have hplug : (rig.changeSimulator fun sim => sim.plugged isConnected).Consistent settings :=
    ⟨h.controller, h.service.of_eq rfl rfl rfl rfl⟩
  have hheard := hplug.announced? hact 0 (Firmware.Simulator.hotplugEvent isConnected)
  constructor
  · rw [Rig.step, announce_eq, hheard]
    rfl
  · unfold droppedBy
    rw [show rig.notice? (.hotplug isConnected) = _ from hheard]

/-- In a cycle a display that reports the state of content protection pushes a notice of it. -/
theorem Consistent.step_reportHdcp (h : rig.Consistent settings)
    (hact : rig.controller.isActive = true) (status : Connector.Hdcp) :
    rig.step (.reportHdcp status) = ⟨rig.controller.push ⟨0, .hdcp status⟩, rig.display⟩ ∧
      rig.droppedBy (.reportHdcp status) = rig.controller.queue.overflow ⟨0, .hdcp status⟩ := by
  have hheard := h.announced? hact 0 (.hdcp status)
  constructor
  · rw [Rig.step, announce_eq, hheard]
  · unfold droppedBy
    rw [show rig.notice? (.reportHdcp status) = _ from hheard]

/-- The step is none of those by which notices come or go past the display and the controller. A
notice that someone else pushes need not be about what the link does, and a notice that someone takes
out of the queue is never dispatched. Either is a use of the queue behind the back of the controller,
which the controller cannot notice; whoever works with controller and display alone has no such
step. -/
def Step.isOfDisplay : Step → Bool
  | .push _ | .drain => false
  | _ => true

/-- A step of a cycle that drops nothing keeps the link tracked. -/
theorem tracksLink_step {s : Step} (hc : rig.Consistent settings)
    (hact : rig.controller.isActive = true) (hown : s.isOfDisplay = true)
    (hstop : s ≠ .request .stop) (hlost : rig.droppedBy s = [])
    (h : rig.controller.TracksLink rig.display.inner.isConnected) :
    (rig.step s).controller.TracksLink (rig.step s).display.inner.isConnected := by
  cases s with
  | push | drain => exact absurd hown (by simp [Step.isOfDisplay])
  | replaceDisplay | setFailing | setFaults => exact h
  | request r =>
    have he := Controller.perform_isEffect rig.controller rig.display r
    show (rig.perform r).controller.TracksLink (rig.perform r).display.inner.isConnected
    rw [show (rig.perform r).display.inner.isConnected = rig.display.inner.isConnected from
      he.sameSink.isConnected]
    exact he.tracksLink hact (fun hr => hstop (congrArg Step.request hr)) h
  | hotplug isConnected =>
    obtain ⟨hrig, hdropped⟩ := hc.step_hotplug hact isConnected
    rw [hdropped] at hlost
    rw [hrig]
    exact Controller.tracksLink_push_hotplug _ isConnected hlost
  | reportHdcp status =>
    obtain ⟨hrig, hdropped⟩ := hc.step_reportHdcp hact status
    rw [hdropped] at hlost
    rw [hrig]
    exact h.push_hdcp hlost

/-- **The state of the link, as the controller knows it.** Take valid settings with an HDMI
connector, a display that was never used, and any run in which notices come from the display only
and go through the controller only. When the run ends active and no notice was dropped since the
last start, the first HDMI connector is there, and it is connected after the waiting notices exactly
if the display is attached. If none wait, that is what the controller answers. -/
theorem state_afterAll_iff_isConnected {settings : Settings} (id : Connector.QueueId)
    (blob : List UInt8) (modes : List Mode.ModeCode) (isConnected : Bool)
    (hvalid : settings.check = .ok settings) (hhdmi : 0 < settings.hdmiCount) :
    ∃ rig, fresh id settings (.fresh blob modes isConnected) = .ok rig ∧
      ∀ steps, (∀ s ∈ steps, s.isOfDisplay = true) →
        (rig.run steps).controller.isActive = true → rig.lost steps = [] →
          ∃ h x, (rig.run steps).controller.handle .hdmi 0 = .ok h ∧
            (rig.run steps).controller.resolve h = .ok x ∧
            (x.state.afterAll 0 (rig.run steps).controller.queue.waiting = .connected ↔
              (rig.run steps).display.inner.isConnected = true) ∧
            ((rig.run steps).controller.queue.waiting = [] →
              (rig.run steps).controller.isDisplayConnected h =
                .ok (rig.run steps).display.inner.isConnected) := by
  obtain ⟨rig, hfresh, hrig⟩ := exists_fresh_consistent id blob modes isConnected hvalid
  have hidle := isActive_of_fresh hvalid hfresh
  refine ⟨rig, hfresh, fun steps hown hact hlost => ?_⟩
  -- the invariant holds from the last start on, if nothing was lost since
  have htracks : (rig.run steps).controller.TracksLink (rig.run steps).display.inner.isConnected := by
    refine lossless_induction
      (P := fun rig => rig.controller.TracksLink rig.display.inner.isConnected) hidle
      (fun before hbefore hstart => ?_) (fun before s after hsplit hgoes hstop hnow h => ?_)
      hact hlost
    · have he := Controller.perform_isEffect (rig.run before).controller (rig.run before).display
        .start
      have hlink := he.tracksLink_of_start
        (Controller.hasHdmi_of_places (hrig.run before).controller.places hhdmi) hbefore hstart
      rw [← he.sameSink.isConnected] at hlink
      exact hlink
    · have hmem : s ∈ steps := by
        rw [hsplit]
        exact List.mem_append_right _ (List.mem_cons_self ..)
      exact tracksLink_step (hrig.run before) hgoes (hown s hmem) hstop hnow h
  obtain ⟨h, x, hh, hx, hk, hi⟩ :=
    Controller.exists_handle_zero (hrig.run steps).controller.places hhdmi hact
  have hiff := htracks x (Controller.mem_of_resolve hx) hk hi
  refine ⟨h, x, hh, hx, hiff, fun hempty => ?_⟩
  -- with nothing waiting the state is the one that the connector has now
  rw [hempty, Connector.State.afterAll_nil] at hiff
  unfold Controller.isDisplayConnected
  rw [Controller.resolveHdmi_eq_ok_iff.mpr ⟨hx, hk⟩]
  show Except.ok (x.state == .connected) = Except.ok _
  rw [Bool.eq_iff_iff.mpr (beq_iff_eq.trans hiff)]

/-- After a start that fails and one that succeeds, a display that comes and goes is still taken for
connected, and no longer once the notice of it is dispatched. -/
theorem connected_until_dispatched :
    ∃ rig, fresh 0 {} (.fresh [] [4, 16] false) = .ok rig ∧
      ∃ steps, rig.lost steps = [] ∧ (rig.run steps).controller.queue.waiting ≠ [] ∧
        (∃ h x, (rig.run steps).controller.resolve h = .ok x ∧ x.state = .connected ∧
          (rig.run steps).display.inner.isConnected = false ∧
          x.state.afterAll 0 (rig.run steps).controller.queue.waiting ≠ .connected) ∧
        ∃ h, (rig.run (steps ++ [.request .dispatch])).controller.isDisplayConnected h = .ok false := by
  obtain ⟨rig, hfresh, hall⟩ := @state_afterAll_iff_isConnected {} 0 [] [4, 16] false rfl (by decide)
  obtain rfl := Except.ok.inj hfresh
  refine ⟨_, hfresh, [.setFailing true, .request .start, .setFailing false, .hotplug true,
    .request .start, .reportHdcp .authenticated, .hotplug false], rfl, List.cons_ne_nil _ _, ?_, ?_⟩
  · obtain ⟨h, x, hh, hx, hiff, -⟩ := hall [.setFailing true, .request .start, .setFailing false,
      .hotplug true, .request .start, .reportHdcp .authenticated, .hotplug false] (by decide) rfl rfl
    refine ⟨h, x, hx, ?_, rfl, mt hiff.mp Bool.false_ne_true⟩
    obtain rfl := Except.ok.inj hh
    obtain rfl := Except.ok.inj hx
    rfl
  · obtain ⟨h, x, -, -, -, hanswer⟩ := hall [.setFailing true, .request .start, .setFailing false,
      .hotplug true, .request .start, .reportHdcp .authenticated, .hotplug false,
      .request .dispatch] (by decide) rfl rfl
    exact ⟨h, hanswer rfl⟩

end Rig

end VideoOutput
