import VideoOutput.Proofs.Link

/-!
# Remembered resolutions

A connector remembers which resolutions its display accepts, once the firmware was asked. What the
display offers changes when it is plugged, and by an exchange while it is unplugged it does not
change at all. So what the first HDMI connector remembers is what the display offers now, or a
notice waits at which the connector will forget it (`RemembersOffer`). When no notice waits, the
first holds, and no answer about the display is about an earlier one (`accepted_eq_offer`).

Whoever drains the queue past the controller takes such notices away, and a full queue drops them;
notices of others do no harm.

The invariant is a disjunction, and each of its sides breaks in its own way: the first by plugging,
which puts a notice into the queue and so establishes the second; the second by a dispatch, which
takes the notice out and makes the connector forget, and so establishes the first. An exchange at a
plugged display would break the first without a notice, which is why runs with such exchanges are
left out (`exchangesUnplugged`). An unplugged display offers nothing, before the exchange and after
it.
-/

namespace VideoOutput

/-- The resolutions that an attached display accepts, and none if there is no display. -/
def Controller.offer (c : Controller) (display : Display) : List Mode.Resolution :=
  if display.inner.isConnected then c.catalog.accepted display.inner.modes else []

theorem Display.SameSink.offer {display display' : Display} (h : display.SameSink display')
    (c : Controller) : c.offer display' = c.offer display := by
  unfold Controller.offer
  rw [h.isConnected, h.modes]

namespace Controller

/-! ## Answers about the display -/

variable {c : Controller} {display : Display}

/-- What the catalog makes of the offered modes is the offer. -/
theorem accepted_offered (c : Controller) (display : Display) :
    c.catalog.accepted display.offered = c.offer display := by
  unfold Display.offered offer
  split
  next => rfl
  next => exact c.catalog.accepted_nil

/-- The firmware of a display tells what the display offers, if it tells anything. -/
theorem askAccepted_of_ok {l : List Mode.Resolution}
    (h : (c.askAccepted display).answer = .ok l) : l = c.offer display := by
  obtain ⟨codes, hcodes, rfl⟩ := exists_of_map_eq_ok h
  rw [Display.modes_of_ok hcodes, accepted_offered]

/-- What a connector answers to be accepted it remembers, or the display offers it. -/
theorem accepted_of_ok {h : Handle} {l : List Mode.Resolution}
    (hl : (c.accepted display h).result = .ok l) :
    ∃ x, c.resolve h = .ok x ∧ (x.accepted = some l ∨ l = c.offer display) := by
  unfold accepted at hl
  cases hr : c.resolveHdmi h .listResolutions with
  | error e =>
    rw [hr] at hl
    exact absurd hl (by simp [reading])
  | ok x =>
    rw [hr] at hl
    refine ⟨x, (resolveHdmi_eq_ok_iff.mp hr).1, ?_⟩
    dsimp only at hl
    split at hl
    next known hknown => exact .inl (hknown.trans (congrArg some (Except.ok.inj hl)))
    next =>
      right
      split at hl
      next => exact absurd hl (by simp)
      next resolutions hasked =>
        rw [← Except.ok.inj hl]
        exact askAccepted_of_ok hasked

/-- Who reads the identification data is told what the display offers. -/
theorem resolutions_of_readIdentity {h : Handle} {currentYear : Nat} {identity : Edid.Identity}
    (hi : (c.readIdentity display h currentYear).result = .ok identity) :
    identity.resolutions = c.offer display := by
  unfold readIdentity at hi
  split at hi
  next => exact absurd hi (by simp [reading])
  next =>
    dsimp only at hi
    split at hi
    next => exact absurd hi (by simp)
    next =>
      split at hi
      next => exact absurd hi (by simp)
      next =>
        split at hi
        next => exact absurd hi (by simp)
        next resolutions hasked =>
          rw [← Except.ok.inj hi]
          rw [Display.readBlob_state] at hasked
          exact askAccepted_of_ok (c := c.remember h none) hasked

/-- The geometries are never remembered, but made of what the display offers. -/
theorem geometries_of_ok {h : Handle} {l : List Mode.Geometry}
    (hl : (c.geometries display h).result = .ok l) : l = geometriesOf display.offered := by
  unfold geometries at hl
  split at hl
  next => exact absurd hl (by simp [reading])
  next =>
    dsimp only at hl
    cases hcodes : (Firmware.modes display).answer with
    | error failure =>
      rw [hcodes] at hl
      exact absurd hl (by simp [Except.map, Except.mapError])
    | ok codes =>
      rw [hcodes, Display.modes_of_ok hcodes] at hl
      exact (Except.ok.inj hl).symm

/-! ## Remembering what is offered -/

/-- A notice waits at which the first HDMI connector will forget what its display accepts. -/
def awaitsHotplug (c : Controller) : Bool :=
  c.queue.waiting.any fun n => n.index == 0 && n.event.isHotplug

/-- What the first HDMI connector remembers is what the display offers, unless it is about to forget
it. -/
def RemembersOffer (display : Display) (c : Controller) : Prop :=
  c.awaitsHotplug = true ∨
    ∀ x ∈ c.connectors, x.kind = .hdmi → x.index = 0 →
      ∀ l, x.accepted = some l → l = c.offer display

/-- Another display at the link that offers the same. -/
theorem RemembersOffer.of_offer_eq {display' : Display} (h : c.RemembersOffer display)
    (hoffer : c.offer display' = c.offer display) : c.RemembersOffer display' := by
  unfold RemembersOffer
  rw [hoffer]
  exact h

/-- A change of the connector that a handle names, after which it remembers what it did, nothing, or
what the display offers. -/
theorem RemembersOffer.modify (h : c.RemembersOffer display) (name : Handle)
    {change : Connector → Connector} (hplace : ∀ x, place (change x) = place x)
    (haccepted : ∀ x l, (change x).accepted = some l →
      x.accepted = some l ∨ l = c.offer display) :
    (c.modify name change).RemembersOffer display := by
  rcases h with hwaits | hall
  · exact .inl hwaits
  · right
    intro y hy hk hi l hl
    obtain ⟨x, hx, ⟨-, rfl⟩ | rfl⟩ := exists_of_mem_modify hy
    · have hk' : x.kind = .hdmi := (congrArg Prod.fst (hplace x)).symm.trans hk
      have hi' : x.index = 0 := (congrArg Prod.snd (hplace x)).symm.trans hi
      rcases haccepted x l hl with hold | hnew
      · exact hall x hx hk' hi' l hold
      · exact hnew
    · exact hall y hx hk hi l hl

/-- A push that drops nothing takes no notice away. -/
theorem RemembersOffer.push (h : c.RemembersOffer display) {notice : Connector.Notice}
    (hroom : c.queue.overflow notice = []) : (c.push notice).RemembersOffer display := by
  rcases h with hwaits | hall
  · left
    show (c.queue.push notice).waiting.any _ = true
    rw [Connector.Queue.waiting_push_of_overflow hroom, List.any_append, Bool.or_eq_true]
    exact .inl hwaits
  · exact .inr hall

/-- The notice that a display came or went is one at which the connector will forget. -/
theorem remembersOffer_push_hotplug (c : Controller) (display : Display) (isConnected : Bool)
    (hroom : c.queue.overflow ⟨0, Firmware.Simulator.hotplugEvent isConnected⟩ = []) :
    (c.push ⟨0, Firmware.Simulator.hotplugEvent isConnected⟩).RemembersOffer display := by
  left
  show (c.queue.push _).waiting.any _ = true
  rw [Connector.Queue.waiting_push_of_overflow hroom, List.any_append, Bool.or_eq_true]
  right
  cases isConnected <;> rfl

/-- After a dispatch no notice waits, and a connector that was to forget has forgotten. -/
theorem RemembersOffer.dispatch (h : c.RemembersOffer display) (hact : c.isActive = true) :
    c.dispatch.1.RemembersOffer display := by
  right
  intro y hy hk hi l hl
  rw [dispatch_eq hact] at hy ⊢
  obtain ⟨x, hx, rfl⟩ := List.mem_map.mp hy
  have hplace := Connector.place_applyAll x c.queue.waiting
  have hk' : x.kind = .hdmi := (congrArg Prod.fst hplace).symm.trans hk
  have hi' : x.index = 0 := (congrArg Prod.snd hplace).symm.trans hi
  rw [Connector.accepted_applyAll hk', hi'] at hl
  rcases h with hwaits | hall
  · rw [show (c.queue.waiting.any fun n => n.index == 0 && n.event.isHotplug) = true from hwaits] at hl
    exact absurd hl (by simp)
  · split at hl
    next => exact absurd hl (by simp)
    next => exact hall x hx hk' hi' l hl

/-- A start forgets everything. -/
theorem remembersOffer_activated (c : Controller) (display : Display) (isConnected : Bool) :
    (c.activated isConnected).RemembersOffer display := by
  right
  intro y hy _ _ l hl
  obtain ⟨x, -, rfl⟩ := List.mem_map.mp hy
  exact absurd hl (by simp [Connector.reset])

/-- Within a cycle every effect of a request keeps what is remembered true or waiting to be
forgotten. -/
theorem Effect.remembersOffer {c' : Controller} {display' : Display} {r : Request}
    {answer : Except Error Answer} (he : Effect c display r answer c' display')
    (hact : c.isActive = true) (hstop : r ≠ .stop) (h : c.RemembersOffer display) :
    c'.RemembersOffer display' := by
  suffices hkept : c'.RemembersOffer display from hkept.of_offer_eq (he.sameSink.offer c')
  cases he with
  | refused | asked | switchRefused | modeRefused => exact h
  | startRefused hidle | linkRefused hidle | started hidle =>
    exact absurd (hact.symm.trans hidle) (by simp)
  | stopped => exact absurd rfl hstop
  | switched | modeSet => exact h.modify _ (fun _ => rfl) fun _ _ => .inl
  | forgotten => exact h.modify _ (fun _ => rfl) fun _ l hl => absurd hl (by simp)
  | remembered _ codes _ _ _ _ hm =>
    obtain ⟨asked, ha, hcodes⟩ := hm
    rw [Display.eq_of_asked ha] at hcodes
    refine h.modify _ (fun _ => rfl) fun _ l hl => .inr ?_
    rw [← Option.some.inj hl, Display.modes_of_ok hcodes, accepted_offered]
  | @registered eventClass => cases eventClass <;> exact h
  | dispatched => exact h.dispatch hact

theorem Effect.remembersOffer_of_start {c' : Controller} {display' : Display}
    {answer : Except Error Answer} (he : Effect c display .start answer c' display')
    (hidle : c.isActive = false) (hact : c'.isActive = true) : c'.RemembersOffer display' := by
  cases he with
  | refused | startRefused | linkRefused => exact absurd (hidle.symm.trans hact) (by simp)
  | asked _ hq => exact absurd hq (by simp [Request.isQuestion])
  | started => exact remembersOffer_activated _ _ _

end Controller

/-! ## Runs -/

namespace Rig

open Controller (RemembersOffer)

variable {settings : Settings} {rig : Rig}

/-- The step exchanges the display. -/
def Step.isExchange : Step → Bool
  | .replaceDisplay _ _ => true
  | _ => false

/-- In the run the display is exchanged only while it is unplugged. -/
def exchangesUnplugged : Rig → List Step → Bool
  | _, [] => true
  | rig, s :: steps =>
    (!s.isExchange || !rig.display.inner.isConnected) && exchangesUnplugged (rig.step s) steps

/-- In such a run the display is unplugged at every exchange. -/
theorem isConnected_of_exchangesUnplugged {before after : List Step} {s : Step}
    (h : rig.exchangesUnplugged (before ++ s :: after) = true) (hs : s.isExchange = true) :
    (rig.run before).display.inner.isConnected = false := by
  induction before generalizing rig with
  | nil =>
    rw [List.nil_append, exchangesUnplugged, hs, Bool.and_eq_true] at h
    simpa using h.1
  | cons t before ih =>
    rw [List.cons_append, exchangesUnplugged, Bool.and_eq_true] at h
    exact ih h.2

/-- An exchange of a display that is not attached offers nothing new. -/
theorem offer_replaceDisplay (h : rig.display.inner.isConnected = false) (blob : List UInt8)
    (modes : List Mode.ModeCode) (c : Controller) :
    c.offer (rig.step (.replaceDisplay blob modes)).display = c.offer rig.display := by
  have hthen : (rig.step (.replaceDisplay blob modes)).display.inner.isConnected = false := h
  unfold Controller.offer
  rw [h, hthen]
  rfl

/-- A step of a cycle that drops nothing keeps what is remembered true. -/
theorem remembersOffer_step {s : Step} (hc : rig.Consistent settings)
    (hact : rig.controller.isActive = true) (hdrain : s ≠ .drain)
    (hswap : s.isExchange = true → rig.display.inner.isConnected = false)
    (hstop : s ≠ .request .stop) (hlost : rig.droppedBy s = [])
    (h : rig.controller.RemembersOffer rig.display) :
    (rig.step s).controller.RemembersOffer (rig.step s).display := by
  cases s with
  | drain => exact absurd rfl hdrain
  | setFailing | setFaults => exact h
  | push notice => exact h.push hlost
  | replaceDisplay blob modes =>
    exact h.of_offer_eq (offer_replaceDisplay (hswap rfl) blob modes _)
  | request r =>
    have he := Controller.perform_isEffect rig.controller rig.display r
    exact he.remembersOffer hact (fun hr => hstop (congrArg Step.request hr)) h
  | hotplug isConnected =>
    obtain ⟨hrig, hdropped⟩ := hc.step_hotplug hact isConnected
    rw [hdropped] at hlost
    rw [hrig]
    exact Controller.remembersOffer_push_hotplug _ _ isConnected hlost
  | reportHdcp status =>
    obtain ⟨hrig, hdropped⟩ := hc.step_reportHdcp hact status
    rw [hdropped] at hlost
    rw [hrig]
    exact h.push hlost

/-- **Nothing about an earlier display is remembered.** Take valid settings with an HDMI connector,
a display that was never used, and any run in which the display is exchanged only while it is
unplugged, and the queue is not drained past the controller. When the run ends active, no notice
waits and none was dropped since the last start, what the first HDMI connector remembers is what the
attached display accepts, or nothing if there is no display. Whoever asks then what the display
accepts, or reads who it is, is told the same if told anything, and the geometries are those of the
modes that it offers.

To drain the queue past the controller is to take away notices that are on their way to it. That is
no step of a run here, since whoever does it has told the controller nothing, and may not expect that
it knows. All other steps are allowed, and so are notices that others push. -/
theorem accepted_eq_offer {settings : Settings} (id : Connector.QueueId) (blob : List UInt8)
    (modes : List Mode.ModeCode) (isConnected : Bool) (hvalid : settings.check = .ok settings)
    (hhdmi : 0 < settings.hdmiCount) :
    ∃ rig, fresh id settings (.fresh blob modes isConnected) = .ok rig ∧
      ∀ steps, Step.drain ∉ steps → rig.exchangesUnplugged steps = true →
        (rig.run steps).controller.isActive = true → rig.lost steps = [] →
        (rig.run steps).controller.queue.waiting = [] →
          ∃ h x, (rig.run steps).controller.handle .hdmi 0 = .ok h ∧
            (rig.run steps).controller.resolve h = .ok x ∧
            (∀ l, x.accepted = some l →
              l = (rig.run steps).controller.offer (rig.run steps).display) ∧
            (∀ l, ((rig.run steps).controller.accepted (rig.run steps).display h).result = .ok l →
              l = (rig.run steps).controller.offer (rig.run steps).display) ∧
            (∀ currentYear identity,
              ((rig.run steps).controller.readIdentity (rig.run steps).display h
                currentYear).result = .ok identity →
              identity.resolutions =
                (rig.run steps).controller.offer (rig.run steps).display) ∧
            ∀ l, ((rig.run steps).controller.geometries (rig.run steps).display h).result = .ok l →
              l = Controller.geometriesOf (rig.run steps).display.offered := by
  obtain ⟨rig, hfresh, hrig⟩ := exists_fresh_consistent id blob modes isConnected hvalid
  have hidle := isActive_of_fresh hvalid hfresh
  refine ⟨rig, hfresh, fun steps hdrain hswap hact hlost hempty => ?_⟩
  have hremembers : (rig.run steps).controller.RemembersOffer (rig.run steps).display := by
    refine lossless_induction (P := fun rig => rig.controller.RemembersOffer rig.display) hidle
      (fun before hbefore hstart => ?_) (fun before s after hsplit hgoes hstop hnow h => ?_)
      hact hlost
    · have he := Controller.perform_isEffect (rig.run before).controller (rig.run before).display
        .start
      exact he.remembersOffer_of_start hbefore hstart
    · have hdrain' : s ≠ .drain := by
        rintro rfl
        rw [hsplit] at hdrain
        exact hdrain (List.mem_append_right _ (List.mem_cons_self ..))
      rw [hsplit] at hswap
      exact remembersOffer_step (hrig.run before) hgoes hdrain'
        (isConnected_of_exchangesUnplugged hswap) hstop hnow h
  obtain ⟨h, x, hh, hx, hk, hi⟩ :=
    Controller.exists_handle_zero (hrig.run steps).controller.places hhdmi hact
  -- no notice waits, so none at which the connector would forget
  have hall : ∀ l, x.accepted = some l →
      l = (rig.run steps).controller.offer (rig.run steps).display := by
    rcases hremembers with hwaits | hall
    · unfold Controller.awaitsHotplug at hwaits
      rw [hempty] at hwaits
      exact absurd hwaits (by simp)
    · exact hall x (Controller.mem_of_resolve hx) hk hi
  refine ⟨h, x, hh, hx, hall, fun l hl => ?_, fun currentYear identity hidentity => ?_,
    fun l hl => Controller.geometries_of_ok hl⟩
  · obtain ⟨y, hy, hknown | hoffer⟩ := Controller.accepted_of_ok hl
    · rw [Except.ok.inj (hy.symm.trans hx)] at hknown
      exact hall l hknown
    · exact hoffer
  · exact Controller.resolutions_of_readIdentity hidentity

/-- A display is asked what it accepts, unplugged, exchanged and plugged again; its successor is
asked after the dispatch. -/
theorem offer_of_successor :
    ∃ rig, fresh 0 {} (.fresh [] [4, 16] true) = .ok rig ∧
      ∃ steps, rig.exchangesUnplugged steps = true ∧ rig.lost steps = [] ∧
        (rig.run steps).controller.queue.waiting = [] ∧
        (rig.run steps).controller.offer (rig.run steps).display ≠
          rig.controller.offer rig.display ∧
        ∃ h x, (rig.run steps).controller.resolve h = .ok x ∧
          x.accepted = some ((rig.run steps).controller.offer (rig.run steps).display) := by
  obtain ⟨rig, hfresh, hall⟩ := @accepted_eq_offer {} 0 [] [4, 16] true rfl (by decide)
  obtain rfl := Except.ok.inj hfresh
  refine ⟨_, hfresh, [.request .start, .request (.on ⟨.hdmi, 0, 1⟩ .accepted), .hotplug false,
    .replaceDisplay [] [32], .hotplug true, .request .dispatch,
    .request (.on ⟨.hdmi, 0, 1⟩ .accepted)], rfl, rfl, rfl, ?_, ?_⟩
  · decide
  · obtain ⟨h, x, hh, hx, hknown, -⟩ := hall [.request .start,
      .request (.on ⟨.hdmi, 0, 1⟩ .accepted), .hotplug false, .replaceDisplay [] [32],
      .hotplug true, .request .dispatch, .request (.on ⟨.hdmi, 0, 1⟩ .accepted)]
      (by decide) rfl rfl rfl rfl
    refine ⟨h, x, hx, ?_⟩
    cases hl : x.accepted with
    | some l => rw [hknown l hl]
    | none =>
      obtain rfl := Except.ok.inj hh
      obtain rfl := Except.ok.inj hx
      exact absurd hl (Option.some_ne_none _)

end Rig

end VideoOutput
