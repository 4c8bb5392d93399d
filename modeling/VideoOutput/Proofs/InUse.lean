import VideoOutput.Proofs.Catalog
import VideoOutput.Proofs.Cycle
import VideoOutput.Proofs.Handles
import VideoOutput.Proofs.Consistency

/-!
# The resolution in use

A resolution is requested by name. The catalog turns the name into a mode code, the code into the
resolution that the connector stores as requested, and the firmware is told the code; who asks for
the resolution in use is told what the catalog makes of the code that the firmware reports. The ways
there and back fit together for every name: what was stored and what is told are the same
(`resolution_in_use`).

Both stay as they are until a resolution is set the next time, on whatever connector, or the
controller is stopped (`IsInUse.run`). No other request touches the requested resolution of a
connector, and nothing else touches the mode of the display.

The two are kept in different places. What was requested is a field of one connector, the mode is a
field of the display, and a display has one mode for all connectors that drive it. A request on
another connector therefore changes what is told on this one and leaves what was requested, which is
why `keepsUse` looks at every setting and not only at those on the handle. An unknown name is one
more way to write the fallback, and the resolution in use is that of the fallback then.
-/

namespace VideoOutput

/-- The resolution name that is requested in place of a name. -/
def Settings.nameFor (settings : Settings) (name : String) : String :=
  Mode.Catalog.nameFor Mode.Catalog.platformModes settings.fallback name

namespace Controller

variable {σ : Type} [Firmware σ] {c : Controller} {h : Handle} {r : Mode.Resolution}

/-! ## What requests do to the requested resolution and to the mode -/

/-- The request set a resolution. -/
def Request.setsResolution (r : Request) (answer : Except Error Answer) : Bool :=
  match r with
  | .on _ (.setResolution _) => answer.isOk
  | _ => false

/-- The connector that a handle names was asked for this resolution. -/
def RequestedIs (h : Handle) (r : Mode.Resolution) (c : Controller) : Prop :=
  ∀ x ∈ c.connectors, x.isNamedBy h = true → x.requested = some r

/-- A change of another field of a connector leaves what was requested there. -/
theorem RequestedIs.modify (hreq : c.RequestedIs h r) (name : Handle)
    {change : Connector → Connector} (hplace : ∀ x, place (change x) = place x)
    (hsame : ∀ x, (change x).requested = x.requested) : (c.modify name change).RequestedIs h r := by
  intro y hy hnamed
  obtain ⟨x, hx, ⟨-, rfl⟩ | rfl⟩ := exists_of_mem_modify hy
  · rw [hsame]
    refine hreq x hx ?_
    have hk : (change x).kind = x.kind := congrArg Prod.fst (hplace x)
    have hi : (change x).index = x.index := congrArg Prod.snd (hplace x)
    rw [isNamedBy_iff, hk, hi] at hnamed
    exact isNamedBy_iff.mpr hnamed
  · exact hreq y hx hnamed

theorem requested_apply (x : Connector) (event : Connector.Event) :
    (x.apply event).requested = x.requested := by
  cases event <;> rfl

theorem RequestedIs.dispatch (hreq : c.RequestedIs h r) : c.dispatch.1.RequestedIs h r :=
  dispatch_induction (P := fun c' => c'.RequestedIs h r) hreq fun _ notice _ hc =>
    hc.modify _ (fun x => place_apply x notice.event) fun x => requested_apply x notice.event

/-- In a cycle the requested resolution stays until one is set. -/
theorem Effect.requestedIs {c' : Controller} {fw fw' : σ} {request : Request}
    {answer : Except Error Answer} (he : Effect c fw request answer c' fw')
    (hact : c.isActive = true) (hstop : request ≠ .stop)
    (hset : request.setsResolution answer = false) (hreq : c.RequestedIs h r) :
    c'.RequestedIs h r := by
  cases he with
  | refused | asked | switchRefused | modeRefused => exact hreq
  | startRefused hidle | linkRefused hidle | started hidle =>
    exact absurd (hact.symm.trans hidle) (by simp)
  | stopped => exact absurd rfl hstop
  | modeSet => exact absurd hset (by simp [Request.setsResolution, Except.isOk, Except.toBool])
  | switched | forgotten | remembered => exact hreq.modify _ (fun _ => rfl) fun _ => rfl
  | @registered eventClass => cases eventClass <;> exact hreq
  | dispatched => exact hreq.dispatch

/-- The display stays in its mode until a resolution is set. -/
theorem Effect.mode {c' : Controller} {display display' : Display} {request : Request}
    {answer : Except Error Answer} (he : Effect c display request answer c' display')
    (hset : request.setsResolution answer = false) :
    display'.inner.mode = display.inner.mode := by
  cases he with
  | refused | stopped | registered | dispatched => rfl
  | asked _ _ ha | forgotten _ _ _ ha | remembered _ _ _ _ _ ha => rw [Display.eq_of_asked ha]
  | startRefused _ hs => rw [Display.start_of_error hs]
  | linkRefused _ hs _ | started _ hs _ =>
    rw [Display.askedAtStart_state hs]
    rfl
  | switchRefused _ ha => rw [Display.setEnabled_of_error ha]
  | @switched name _ _ _ ha =>
    rw [Display.setEnabled_of_ok ha]
    cases name.kind <;> rfl
  | modeRefused _ _ ha => rw [Display.setMode_of_error ha]
  | modeSet => exact absurd hset (by simp [Request.setsResolution, Except.isOk, Except.toBool])

/-- What a request does that sets a resolution. -/
theorem Effect.of_setResolution {c' : Controller} {fw fw' : σ} {name : String} {answer : Answer}
    (he : Effect c fw (.on h (.setResolution name)) (.ok answer) c' fw') :
    (∃ x, c.resolve h = .ok x ∧ x.kind = .hdmi) ∧
      (Firmware.setMode (c.catalog.codeOf name) fw).answer = .ok () ∧
      c' = (c.modify h fun x =>
        { x with requested := c.catalog.resolutionOf? (c.catalog.codeOf name) }) ∧
      fw' = (Firmware.setMode (c.catalog.codeOf name) fw).state := by
  cases he with
  | asked _ hq => exact absurd hq (by simp [Request.isQuestion, HandleRequest.isQuestion])
  | modeSet hr hk ha => exact ⟨⟨_, hr, hk⟩, ha, rfl, rfl⟩
  | remembered _ _ hreq => exact absurd hreq (by simp)

/-! ## What is told -/

/-- A resolution is told exactly if the handle is accepted, the firmware answers, and the code that
it reports has a resolution. -/
theorem resolution_eq_ok_iff {fw : σ} :
    (c.resolution fw h).result = .ok r ↔
      (∃ x, c.resolve h = .ok x ∧ x.kind = .hdmi) ∧
        ∃ link, (Firmware.linkState fw).answer = .ok link ∧
          c.catalog.resolutionOf? link.mode = some r := by
  unfold resolution
  constructor
  · intro hresult
    cases hr : c.resolveHdmi h .tellResolution with
    | error e =>
      rw [hr] at hresult
      exact absurd hresult (by simp [reading])
    | ok x =>
      rw [hr] at hresult
      dsimp only at hresult
      refine ⟨⟨x, resolveHdmi_eq_ok_iff.mp hr⟩, ?_⟩
      split at hresult
      next => exact absurd hresult (by simp)
      next link hlink =>
        split at hresult
        next r' hr' => exact ⟨link, hlink, hr'.trans (congrArg some (Except.ok.inj hresult))⟩
        next => exact absurd hresult (by simp)
  · rintro ⟨⟨x, hx⟩, link, hlink, hr⟩
    rw [resolveHdmi_eq_ok_iff.mpr hx]
    dsimp only
    rw [hlink]
    dsimp only
    rw [hr]

/-- The aspect ratio is told as the firmware knows it. -/
theorem aspect_of_ok {display : Display} {aspect : Mode.Aspect}
    (ha : (c.aspect display h).result = .ok aspect) :
    aspect = display.inner.currentLink.aspect := by
  unfold Controller.aspect at ha
  split at ha
  next => exact absurd ha (by simp [reading])
  next =>
    dsimp only at ha
    cases hlink : (Firmware.linkState display).answer with
    | error failure =>
      rw [hlink] at ha
      exact absurd ha (by simp [Except.map, Except.mapError])
    | ok link =>
      rw [hlink, Display.linkState_of_ok hlink] at ha
      exact (Except.ok.inj ha).symm

/-- Asking for the resolution changes nothing. -/
theorem Effect.of_resolution {c' : Controller} {fw fw' : σ} {answer : Except Error Answer}
    (he : Effect c fw (.on h .resolution) answer c' fw') : c' = c ∧ Firmware.Asked fw fw' := by
  cases he with
  | refused => exact ⟨rfl, .nothing⟩
  | asked _ _ ha => exact ⟨rfl, ha⟩
  | remembered _ _ hreq => exact absurd hreq (by simp)

end Controller

namespace Rig

open Controller (RequestedIs)

variable {settings : Settings} {rig : Rig} {h : Handle} {r : Mode.Resolution} {s : Step}

/-- The answer to a request. -/
def answer (rig : Rig) (request : Controller.Request) :
    Except Controller.Error Controller.Answer :=
  (rig.controller.perform rig.display request).result

/-- The step ends the use of a resolution: it stops the controller, or it sets a resolution. -/
def endsUse (rig : Rig) : Step → Bool
  | .request request => request == .stop || request.setsResolution (rig.answer request)
  | _ => false

/-- No step of the run ends the use of a resolution. -/
def keepsUse : Rig → List Step → Bool
  | _, [] => true
  | rig, s :: steps => !rig.endsUse s && keepsUse (rig.step s) steps

/-- The connector of a handle was asked for a resolution, and the display is in its mode. -/
structure IsInUse (rig : Rig) (h : Handle) (r : Mode.Resolution) : Prop where
  hdmi : h.kind = .hdmi
  accepted : ∃ x, rig.controller.resolve h = .ok x
  requested : rig.controller.RequestedIs h r
  mode : ⟨r.name, rig.display.inner.mode⟩ ∈ Mode.Catalog.platformModes

/-! ## Steps and runs -/

theorem step_request (rig : Rig) (request : Controller.Request) :
    rig.step (.request request) =
      ⟨(rig.controller.perform rig.display request).controller,
        (rig.controller.perform rig.display request).firmware⟩ := rfl

/-- The catalog is made of the platform's tables, and stays so. -/
theorem withFallback_run {fallback : String}
    (hcat : Mode.Catalog.withFallback fallback = .ok rig.controller.catalog) (steps : List Step) :
    Mode.Catalog.withFallback fallback = .ok (rig.run steps).controller.catalog := by
  rw [(sameSetup_run rig steps).catalog]
  exact hcat

/-- The generation stays until the controller is stopped and started. -/
theorem generation_step (hact : rig.controller.isActive = true) (s : Step) :
    (rig.step s).controller.generation = rig.controller.generation := by
  have hannounce : ∀ (rig : Rig) (index : UInt8) (event : Connector.Event),
      (rig.announce index event).controller.generation = rig.controller.generation := fun rig =>
    announce_induction (P := fun r => r.controller.generation = rig.controller.generation) rfl
      fun _ => rfl
  cases s with
  | request request =>
    rcases (Controller.perform_isEffect rig.controller rig.display request).generation with
      ⟨rfl, hok, -⟩ | ⟨-, hsame⟩
    · have hno := Assembly.begins_of_isActive (a := rig.toAssembly) hact (.request .start)
      exact absurd (hok.symm.trans hno) (by simp)
    · exact hsame
  | hotplug isConnected => exact hannounce (rig.changeSimulator _) 0 _
  | reportHdcp status => exact hannounce rig 0 _
  | push | drain | replaceDisplay | setFailing | setFaults => rfl

/-- A handle that is accepted stays so until the controller is stopped. -/
theorem exists_resolve_step (hr : ∃ x, rig.controller.resolve h = .ok x)
    (hs : s ≠ .request .stop) : ∃ x, (rig.step s).controller.resolve h = .ok x := by
  obtain ⟨x, hx⟩ := hr
  have hact := Controller.isActive_of_resolve hx
  have hgen := (Controller.resolve_eq_ok_iff.mp hx).2.1
  have hmem := (Controller.exists_resolve_iff hact hgen).mp ⟨x, hx⟩
  have hgen' := hgen.trans (generation_step hact s).symm
  refine (Controller.exists_resolve_iff (isActive_step hact hs) hgen').mpr ?_
  rw [(sameSetup_step rig s).places]
  exact hmem

theorem IsInUse.announce (hu : rig.IsInUse h r) (index : UInt8) (event : Connector.Event) :
    (rig.announce index event).IsInUse h r :=
  announce_induction (P := fun rig' => rig'.IsInUse h r) hu
    (fun _ => ⟨hu.hdmi, hu.accepted, hu.requested, hu.mode⟩) index event

/-- A step that does not end the use of a resolution leaves it in use. -/
theorem IsInUse.step (hu : rig.IsInUse h r) (hs : rig.endsUse s = false) :
    (rig.step s).IsInUse h r := by
  cases s with
  | request request =>
    have he := Controller.perform_isEffect rig.controller rig.display request
    obtain ⟨hstop, hset⟩ := Bool.or_eq_false_iff.mp hs
    have hne : request ≠ .stop := beq_eq_false_iff_ne.mp hstop
    have hact : rig.controller.isActive = true := by
      obtain ⟨x, hx⟩ := hu.accepted
      exact Controller.isActive_of_resolve hx
    refine ⟨hu.hdmi, exists_resolve_step hu.accepted ?_, he.requestedIs hact hne hset hu.requested, ?_⟩
    · intro hs
      exact hne (Step.request.inj hs)
    · have hmode : (rig.step (.request request)).display.inner.mode = rig.display.inner.mode :=
        he.mode hset
      rw [hmode]
      exact hu.mode
  | hotplug isConnected =>
    have hplug : (rig.changeSimulator fun sim => sim.plugged isConnected).IsInUse h r :=
      ⟨hu.hdmi, hu.accepted, hu.requested, hu.mode⟩
    exact hplug.announce 0 _
  | reportHdcp status => exact hu.announce 0 _
  | push | drain | replaceDisplay | setFailing | setFaults =>
    exact ⟨hu.hdmi, hu.accepted, hu.requested, hu.mode⟩

/-- A resolution stays in use through every run that does not set another one and does not stop. -/
theorem IsInUse.run {steps : List Step} (hu : rig.IsInUse h r)
    (hkeeps : rig.keepsUse steps = true) : (rig.run steps).IsInUse h r := by
  induction steps generalizing rig with
  | nil => exact hu
  | cons s steps ih =>
    rw [keepsUse, Bool.and_eq_true, Bool.not_eq_true'] at hkeeps
    exact ih (hu.step hkeeps.1) hkeeps.2

/-! ## What is told about a resolution in use -/

/-- Whoever asks about the resolution in use is told about this one. -/
structure Tells (rig : Rig) (h : Handle) (r : Mode.Resolution) : Prop where
  requested : rig.answer (.on h .requested) = .ok (.requested (some r))
  resolution : ∀ r', rig.answer (.on h .resolution) = .ok (.resolution r') → r' = r
  aspect : ∀ aspect, rig.answer (.on h .aspect) = .ok (.aspect aspect) → aspect = r.aspect

/-- The answer to the request is the resolution that the controller tells. -/
theorem answer_resolution_eq_ok_iff :
    rig.answer (.on h .resolution) = .ok (.resolution r) ↔
      (rig.controller.resolution rig.display h).result = .ok r := by
  show (rig.controller.resolution rig.display h).result.map Controller.Answer.resolution = _ ↔ _
  cases (rig.controller.resolution rig.display h).result with
  | error e => simp [Except.map]
  | ok r' => simp [Except.map]

/-- The mode of a resolution in use is resolved to it, by the controller's catalog as well as by the
platform's own. -/
theorem IsInUse.resolutionOf? (hu : rig.IsInUse h r) (hr : r ∈ Mode.Resolution.advertised)
    {catalog : Mode.Catalog} {fallback : String}
    (hcat : Mode.Catalog.withFallback fallback = .ok catalog) :
    catalog.resolutionOf? rig.display.inner.mode = some r := by
  obtain ⟨hresolutions, hmodes, hconsistent, -⟩ := Mode.Catalog.withFallback_eq_ok_iff.mp hcat
  refine Mode.Catalog.resolutionOf?_of_mem hconsistent ?_ ?_
  · rw [hresolutions]
    exact hr
  · rw [hmodes]
    exact hu.mode

/-- A resolution in use is told as long as the firmware tells the state of the link. -/
theorem IsInUse.answer_resolution (hu : rig.IsInUse h r) (hr : r ∈ Mode.Resolution.advertised)
    (hcat : Mode.Catalog.withFallback settings.fallback = .ok rig.controller.catalog)
    {link : Firmware.LinkState} (hlink : (Firmware.linkState rig.display).answer = .ok link) :
    rig.answer (.on h .resolution) = .ok (.resolution r) := by
  obtain ⟨x, hx⟩ := hu.accepted
  have hk : x.kind = .hdmi := (Controller.named_of_resolve hx).1.trans hu.hdmi
  refine answer_resolution_eq_ok_iff.mpr (Controller.resolution_eq_ok_iff.mpr ⟨⟨x, hx, hk⟩, link,
    hlink, ?_⟩)
  rw [Display.linkState_of_ok hlink]
  exact hu.resolutionOf? hr hcat

/-- A resolution in use is told by both ways of asking. -/
theorem IsInUse.tells (hu : rig.IsInUse h r) (hr : r ∈ Mode.Resolution.advertised)
    (hcat : Mode.Catalog.withFallback settings.fallback = .ok rig.controller.catalog) :
    rig.Tells h r := by
  obtain ⟨x, hx⟩ := hu.accepted
  refine ⟨?_, ?_, ?_⟩
  · have hreq : x.requested = some r :=
      hu.requested x (Controller.mem_of_resolve hx)
        (Controller.isNamedBy_iff.mpr (Controller.named_of_resolve hx))
    show ((rig.controller.resolve h).map Connector.requested).map Controller.Answer.requested = _
    rw [hx, ← hreq]
    rfl
  · intro r' hanswer
    obtain ⟨-, link, hlink, -⟩ :=
      Controller.resolution_eq_ok_iff.mp (answer_resolution_eq_ok_iff.mp hanswer)
    have hsame := hanswer.symm.trans (hu.answer_resolution hr hcat hlink)
    exact Controller.Answer.resolution.inj (Except.ok.inj hsame)
  · intro aspect hanswer
    obtain ⟨aspect', haspect, heq⟩ := Controller.exists_of_map_eq_ok hanswer
    obtain rfl := Controller.Answer.aspect.inj heq
    rw [Controller.aspect_of_ok haspect]
    unfold Firmware.Simulator.currentLink
    rw [hu.resolutionOf? hr Mode.Catalog.withFallback_platformFallback]
    rfl

/-! ## Setting a resolution -/

/-- What a request does that sets a resolution. -/
theorem step_setResolution {name : String}
    (hset : rig.answer (.on h (.setResolution name)) = .ok .done) :
    (∃ x, rig.controller.resolve h = .ok x ∧ x.kind = .hdmi) ∧
      rig.step (.request (.on h (.setResolution name))) =
        ⟨rig.controller.modify h fun x =>
            { x with requested :=
                rig.controller.catalog.resolutionOf? (rig.controller.catalog.codeOf name) },
          rig.display.changed fun sim => { sim with mode := rig.controller.catalog.codeOf name }⟩ := by
  have he := Controller.perform_isEffect rig.controller rig.display (.on h (.setResolution name))
  unfold Controller.Outcome.IsEffect at he
  rw [show (rig.controller.perform rig.display _).result = _ from hset] at he
  obtain ⟨hx, hmode, hcontroller, hdisplay⟩ := he.of_setResolution
  refine ⟨hx, ?_⟩
  rw [step_request, hcontroller, hdisplay, Display.setMode_of_ok hmode]

/-- What was set is in use: the resolution of the requested name, or of the fallback if no
resolution has this name. -/
theorem exists_isInUse {name : String}
    (hcat : Mode.Catalog.withFallback settings.fallback = .ok rig.controller.catalog)
    (hset : rig.answer (.on h (.setResolution name)) = .ok .done) :
    ∃ r ∈ Mode.Resolution.advertised, r.name = settings.nameFor name ∧
      (rig.step (.request (.on h (.setResolution name)))).IsInUse h r := by
  obtain ⟨⟨x, hx, hk⟩, hstep⟩ := step_setResolution hset
  -- the code has a row, the row names a resolution, and to this one the code is resolved
  obtain ⟨r, hr, hname, hrow, hresolved⟩ :=
    Mode.Catalog.exists_resolutionOf?_of_withFallback hcat name
  have haccepted := exists_resolve_step (s := .request (.on h (.setResolution name))) ⟨x, hx⟩
    (by simp)
  rw [hstep] at haccepted ⊢
  refine ⟨r, hr, hname, (Controller.named_of_resolve hx).1.symm.trans hk, haccepted, ?_, hrow⟩
  intro y hy hnamed
  obtain ⟨z, -, rfl⟩ := List.mem_map.mp hy
  split at hnamed
  next hz => rw [if_pos hz, hresolved]
  next hz => exact absurd hnamed hz

/-- A resolution of the table that was set by its own name is in use. -/
theorem isInUse_of_setResolution (hr : r ∈ Mode.Resolution.advertised)
    (hcat : Mode.Catalog.withFallback settings.fallback = .ok rig.controller.catalog)
    (hset : rig.answer (.on h (.setResolution r.name)) = .ok .done) :
    (rig.step (.request (.on h (.setResolution r.name)))).IsInUse h r := by
  obtain ⟨hresolutions, -, hconsistent, -⟩ := Mode.Catalog.withFallback_eq_ok_iff.mp hcat
  obtain ⟨x, hx, hname, huse⟩ := exists_isInUse hcat hset
  obtain ⟨code, hrow⟩ := Mode.Catalog.exists_row_of_mem_advertised hr
  have hsame : x.name = r.name := hname.trans (Mode.Catalog.nameFor_of_mem hrow settings.fallback)
  rw [← hresolutions] at hx hr
  rw [Mode.Catalog.eq_of_name_eq hconsistent hx hr hsame] at huse
  exact huse

/-- Asking for the resolution changes nothing. -/
theorem step_resolution (rig : Rig) (h : Handle) :
    rig.step (.request (.on h .resolution)) = rig := by
  have he := Controller.perform_isEffect rig.controller rig.display (.on h .resolution)
  obtain ⟨hcontroller, hasked⟩ := he.of_resolution
  rw [step_request, hcontroller, Display.eq_of_asked hasked]

/-- **Setting what is in use anyway** changes nothing about the answer. A resolution that was found by
geometry was not set by its own mode, but it has one. -/
theorem answer_resolution_of_setResolution
    (hcat : Mode.Catalog.withFallback settings.fallback = .ok rig.controller.catalog)
    (hget : rig.answer (.on h .resolution) = .ok (.resolution r))
    (hset : rig.answer (.on h (.setResolution r.name)) = .ok .done) :
    (rig.step (.request (.on h (.setResolution r.name)))).answer (.on h .resolution) =
      .ok (.resolution r) := by
  obtain ⟨-, link, hlink, hresolved⟩ :=
    Controller.resolution_eq_ok_iff.mp (answer_resolution_eq_ok_iff.mp hget)
  have hr : r ∈ Mode.Resolution.advertised := by
    rw [← Mode.Catalog.resolutions_of_withFallback hcat]
    exact Mode.Catalog.mem_of_resolutionOf? hresolved
  -- the firmware told the state of the link before, and the mode is no reason to stop doing so
  obtain ⟨hfault, hrefusal, -⟩ := Display.linkState_eq_ok_iff.mp hlink
  have hagain : (Firmware.linkState
      (rig.step (.request (.on h (.setResolution r.name)))).display).answer =
        .ok (rig.step (.request (.on h (.setResolution r.name)))).display.inner.currentLink := by
    rw [(step_setResolution hset).2]
    exact Display.linkState_eq_ok_iff.mpr ⟨hfault, hrefusal, rfl⟩
  exact (isInUse_of_setResolution hr hcat hset).answer_resolution hr
    (withFallback_run hcat [.request (.on h (.setResolution r.name))]) hagain

/-! ## Every run -/

/-- For valid settings there is a controller, consistent with a display that was never used, and its
catalog is made of the platform's tables and the fallback of the settings. -/
theorem exists_fresh_withFallback {settings : Settings} (id : Connector.QueueId)
    (blob : List UInt8) (modes : List Mode.ModeCode) (isConnected : Bool)
    (hvalid : settings.check = .ok settings) :
    ∃ rig, fresh id settings (.fresh blob modes isConnected) = .ok rig ∧
      rig.Consistent settings ∧
      Mode.Catalog.withFallback settings.fallback = .ok rig.controller.catalog := by
  obtain ⟨catalog, hcat, hfresh⟩ := fresh_of_check hvalid id (.fresh blob modes isConnected)
  exact ⟨_, hfresh, ⟨Controller.consistent_initial id hcat, ⟨rfl, rfl⟩⟩, hcat⟩

/-- **The resolution in use.** Take valid settings, a display that was never used, and any run of
the controller that drives it. When a resolution is set by name, on whatever HDMI connector, there
is one resolution of the table that belongs to the name: the one called so, or the fallback of the
settings if no resolution is called so. Through any further steps, up to the next stop and the next
time that a resolution is set, this is the one that was requested, and the one in use together with
its aspect ratio whenever the controller can answer. And whatever resolution the controller says is
in use, in whatever state the display may be, if it is then set, the controller says so again. -/
theorem resolution_in_use {settings : Settings} (id : Connector.QueueId) (blob : List UInt8)
    (modes : List Mode.ModeCode) (isConnected : Bool) (hvalid : settings.check = .ok settings) :
    ∃ rig, fresh id settings (.fresh blob modes isConnected) = .ok rig ∧
      (∀ before h name, (rig.run before).answer (.on h (.setResolution name)) = .ok .done →
        ∃ r ∈ Mode.Resolution.advertised, r.name = settings.nameFor name ∧
          ∀ after,
            (rig.run (before ++ [.request (.on h (.setResolution name))])).keepsUse after = true →
            (rig.run (before ++ .request (.on h (.setResolution name)) :: after)).Tells h r) ∧
      ∀ steps display h r,
        (mk (rig.run steps).controller display).answer (.on h .resolution) =
          .ok (.resolution r) →
        ((mk (rig.run steps).controller display).run [.request (.on h .resolution)]).answer
          (.on h (.setResolution r.name)) = .ok .done →
        ((mk (rig.run steps).controller display).run [.request (.on h .resolution),
          .request (.on h (.setResolution r.name))]).answer (.on h .resolution) =
            .ok (.resolution r) := by
  obtain ⟨rig, hfresh, -, hcat⟩ := exists_fresh_withFallback id blob modes isConnected hvalid
  have hcats := withFallback_run hcat
  refine ⟨rig, hfresh, ?_, ?_⟩
  · intro before h name hset
    obtain ⟨r, hr, hname, huse⟩ := exists_isInUse (hcats before) hset
    refine ⟨r, hr, hname, ?_⟩
    intro after hkeeps
    have hcat' := hcats (before ++ .request (.on h (.setResolution name)) :: after)
    rw [run_append] at hkeeps hcat' ⊢
    exact (huse.run hkeeps).tells hr hcat'
  · intro steps display h r hget hset
    -- asking for the resolution leaves the rig as it is
    rw [run_cons, step_resolution, run_nil] at hset
    rw [run_cons, step_resolution]
    exact answer_resolution_of_setResolution (hcats steps) hget hset

/-- The fallback that was set for an unknown name is told although another display was attached that
does not accept it, one resolution was refused and the display unplugged. And mode 63, which is told
as `1080i` for its geometry, makes room for the mode of this name. -/
theorem resolution_in_use_after_exchange :
    ∃ rig, fresh 0 {} (.fresh [] [63, 5, 4] true) = .ok rig ∧
      (∃ r after, r.name = "720p" ∧
        (rig.run ([.request .start] ++ .request (.on ⟨.hdmi, 0, 1⟩ (.setResolution "4320p")) ::
          after)).display.inner.modes = [16] ∧
        (rig.run ([.request .start] ++ .request (.on ⟨.hdmi, 0, 1⟩ (.setResolution "4320p")) ::
          after)).Tells ⟨.hdmi, 0, 1⟩ r) ∧
      ∃ r, r.name = "1080i" ∧ (rig.run [.request .start]).display.inner.mode = 63 ∧
        (rig.run [.request .start, .request (.on ⟨.hdmi, 0, 1⟩ .resolution),
          .request (.on ⟨.hdmi, 0, 1⟩ (.setResolution r.name))]).answer
            (.on ⟨.hdmi, 0, 1⟩ .resolution) = .ok (.resolution r) := by
  obtain ⟨rig, hfresh, huse, hagain⟩ := @resolution_in_use {} 0 [] [63, 5, 4] true rfl
  obtain rfl := Except.ok.inj hfresh
  refine ⟨_, hfresh, ?_, ?_⟩
  · obtain ⟨r, -, hname, htells⟩ := huse [.request .start] ⟨.hdmi, 0, 1⟩ "4320p" rfl
    exact ⟨r, [.replaceDisplay [] [16], .request (.on ⟨.hdmi, 0, 1⟩ (.setResolution "480p")),
      .hotplug false, .request .dispatch, .request (.on ⟨.hdmi, 0, 1⟩ (.readIdentity 2024)),
      .request (.on ⟨.hdmi, 0, 1⟩ (.setEnabled false))], hname, rfl, htells _ rfl⟩
  · exact ⟨_, rfl, rfl, hagain [.request .start] _ ⟨.hdmi, 0, 1⟩ _ rfl rfl⟩

end Rig

end VideoOutput
