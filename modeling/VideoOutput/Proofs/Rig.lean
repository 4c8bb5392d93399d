import VideoOutput.Proofs.Display

/-!
# A controller with a display of its own

A `Rig` is one controller together with the simulated display that it alone drives. Its runs are
lists of steps: requests to the controller, what can happen to the display from outside, notices
pushed to the queue or drained from it, and faults set on the calls of the firmware. A rig is a
bench with a single display and a single station (`onBench_run`), so nothing is modelled anew here:
what is proved of a rig holds of the program that the bench runs.

The steps are those of a session as a whole and not of the controller alone. What is outside the
controller can be done at any time, also between two requests: the display can be unplugged, its
blob and its modes can be exchanged, a call can be made to fail. A theorem about runs therefore
speaks of every order in which these can come.

`run_invariant` is the one induction over runs. It asks for the property at the first rig and for
one step, so that each module that follows shows a lemma for one step and quotes it. Where a
property concerns what the display announces, `announce_induction` splits the two cases: a running
display pushes to the queue that is attached to it, one that is not stays silent.
-/

namespace VideoOutput

/-- A controller and the display that it alone drives. -/
structure Rig where
  controller : Controller
  display : Display

namespace Rig

/-- A controller that was never started, over a display without faults. -/
def fresh (id : Connector.QueueId) (settings : Settings) (sim : Firmware.Simulator) :
    Except SettingsError Rig :=
  (Controller.ofSettings id settings).map fun controller => ⟨controller, ⟨sim, {}⟩⟩

/-- One thing that happens in a run. -/
inductive Step where
  | request (request : Controller.Request)
  /-- A notice is pushed to the queue, whoever does so. -/
  | push (notice : Connector.Notice)
  /-- The queue is drained past the controller. -/
  | drain
  | hotplug (isConnected : Bool)
  | reportHdcp (status : Connector.Hdcp)
  | replaceDisplay (blob : List UInt8) (modes : List Mode.ModeCode)
  | setFailing (isFailing : Bool)
  | setFaults (faults : Firmware.Faults)
  deriving DecidableEq

/-- Change the simulation inside the display. -/
def changeSimulator (rig : Rig) (change : Firmware.Simulator → Firmware.Simulator) : Rig :=
  { rig with display := rig.display.changed change }

/-- Let the display announce an event on the HDMI connector with a number. -/
def announce (rig : Rig) (index : UInt8) (event : Connector.Event) : Rig :=
  match rig.display.inner.announcement index event with
  | some (queue, notice) =>
    if queue = rig.controller.queueId then { rig with controller := rig.controller.push notice }
    else rig
  | none => rig

/-- Let the controller carry out a request. -/
def perform (rig : Rig) (request : Controller.Request) : Rig :=
  let outcome := rig.controller.perform rig.display request
  ⟨outcome.controller, outcome.firmware⟩

/-- The rig after one step. -/
def step (rig : Rig) : Step → Rig
  | .request request => rig.perform request
  | .push notice => { rig with controller := rig.controller.push notice }
  | .drain => { rig with controller := rig.controller.emptyQueue }
  | .hotplug isConnected =>
    (rig.changeSimulator fun sim => sim.plugged isConnected).announce 0
      (Firmware.Simulator.hotplugEvent isConnected)
  | .reportHdcp status => rig.announce 0 (.hdcp status)
  | .replaceDisplay blob modes => rig.changeSimulator fun sim => sim.replaceDisplay blob modes
  | .setFailing isFailing => rig.changeSimulator fun sim => { sim with isFailing }
  | .setFaults faults => { rig with display := { rig.display with faults } }

/-- The rig after a run. -/
def run (rig : Rig) (steps : List Step) : Rig :=
  steps.foldl step rig

/-! ## Runs -/

@[simp] theorem run_nil (rig : Rig) : rig.run [] = rig := rfl

@[simp] theorem run_cons (rig : Rig) (s : Step) (steps : List Step) :
    rig.run (s :: steps) = (rig.step s).run steps := rfl

/-- A run can be cut anywhere: the second part starts where the first one ended. -/
theorem run_append (rig : Rig) (first second : List Step) :
    rig.run (first ++ second) = (rig.run first).run second :=
  List.foldl_append

/-- What every step keeps, every run keeps. -/
theorem run_invariant {P : Rig → Prop} (hstep : ∀ (rig : Rig) (s : Step), P rig → P (rig.step s)) :
    ∀ (steps : List Step) {rig : Rig}, P rig → P (rig.run steps) := by
  intro steps
  induction steps with
  | nil => intro rig h; exact h
  | cons s steps ih => intro rig h; exact ih (hstep rig s h)

/-- An announcement pushes a notice or does nothing. -/
theorem announce_induction {P : Rig → Prop} {rig : Rig} (hsame : P rig)
    (hpush : ∀ notice, P { rig with controller := rig.controller.push notice }) (index : UInt8)
    (event : Connector.Event) : P (rig.announce index event) := by
  unfold announce
  split
  next =>
    split
    next => exact hpush _
    next => exact hsame
  next => exact hsame

/-! ## What never changes -/

/-- What the display announces reaches the queue at most, so the set-up of the controller stays. -/
theorem sameSetup_announce (rig : Rig) (index : UInt8) (event : Connector.Event) :
    Controller.SameSetup rig.controller (rig.announce index event).controller :=
  announce_induction (P := fun r => Controller.SameSetup rig.controller r.controller) (.refl _)
    (fun _ => Controller.sameSetup_push _ _) index event

/-- No step of any kind touches what the controller was set up with. -/
theorem sameSetup_step (rig : Rig) (s : Step) :
    Controller.SameSetup rig.controller (rig.step s).controller := by
  cases s with
  | request request => exact (Controller.perform_isEffect rig.controller rig.display request).sameSetup
  | push notice => exact Controller.sameSetup_push _ _
  | drain => exact Controller.sameSetup_emptyQueue _
  | hotplug isConnected =>
    exact sameSetup_announce (rig.changeSimulator fun sim => sim.plugged isConnected) 0 _
  | reportHdcp status => exact sameSetup_announce rig 0 _
  | replaceDisplay | setFailing | setFaults => exact .refl _

/-- A controller has the same catalog, policy, limit and places at the end of every run. -/
theorem sameSetup_run (rig : Rig) (steps : List Step) :
    Controller.SameSetup rig.controller (rig.run steps).controller :=
  run_invariant (P := fun r => Controller.SameSetup rig.controller r.controller)
    (fun r s h => h.trans (sameSetup_step r s)) steps (.refl _)

/-- A fresh rig exists for all settings that pass the check. -/
theorem fresh_of_check {settings : Settings} (hvalid : settings.check = .ok settings)
    (id : Connector.QueueId) (sim : Firmware.Simulator) :
    ∃ catalog, Mode.Catalog.withFallback settings.fallback = .ok catalog ∧
      fresh id settings sim = .ok ⟨.initial id settings catalog, ⟨sim, {}⟩⟩ := by
  obtain ⟨catalog, hcat, hmade⟩ := Controller.ofSettings_of_check hvalid id
  refine ⟨catalog, hcat, ?_⟩
  unfold fresh
  rw [hmade]
  rfl

/-! ## Rigs are benches -/

/-- The bench with this display and this station only. -/
def onBench (rig : Rig) : Bench :=
  ⟨[rig.display], [⟨rig.controller, 0⟩]⟩

/-- The step on a bench whose first station drives its first display. -/
def benchStep (bench : Bench) : Step → Bench
  | .request request =>
    match bench.perform 0 request with
    | some (_, bench, _) => bench
    | none => bench
  | .push notice => (bench.push 0 notice).1
  | .drain => bench.changeController 0 Controller.emptyQueue
  | .hotplug isConnected => (bench.hotplug 0 isConnected).1
  | .reportHdcp status => (bench.announce 0 0 (.hdcp status)).1
  | .replaceDisplay blob modes =>
    bench.changeSimulator 0 fun sim => sim.replaceDisplay blob modes
  | .setFailing isFailing => bench.changeSimulator 0 fun sim => { sim with isFailing }
  | .setFaults faults => bench.changeDisplay 0 fun display => { display with faults }

/-- The rig's notice is the bench's notice to its one station, whose queue has the number zero. -/
theorem onBench_announce {rig : Rig} (index : UInt8) (event : Connector.Event)
    (hid : rig.controller.queueId = 0) :
    (rig.announce index event).onBench = (rig.onBench.announce 0 index event).1 := by
  unfold announce Bench.announce
  simp only [onBench, List.getElem?_cons_zero]
  cases rig.display.inner.announcement index event with
  | none => rfl
  | some target =>
    obtain ⟨queue, notice⟩ := target
    dsimp only
    rw [hid]
    -- a later queue belongs to no station of this bench
    cases queue with
    | zero => rfl
    | succ n => simp [Bench.push, Bench.changeController]

/-- One step of the rig is one step of the bench that it stands for. -/
theorem onBench_step {rig : Rig} (s : Step) (hid : rig.controller.queueId = 0) :
    (rig.step s).onBench = benchStep rig.onBench s := by
  cases s with
  | hotplug isConnected =>
    have hid' : (rig.changeSimulator fun sim => sim.plugged isConnected).controller.queueId = 0 := hid
    exact onBench_announce 0 _ hid'
  | reportHdcp status => exact onBench_announce 0 _ hid
  | _ => rfl

/-- A run of a rig is the run of the bench with nothing else on it. -/
theorem onBench_run (steps : List Step) {rig : Rig} (hid : rig.controller.queueId = 0) :
    (rig.run steps).onBench = steps.foldl benchStep rig.onBench := by
  induction steps generalizing rig with
  | nil => rfl
  | cons s steps ih =>
    rw [run_cons, List.foldl_cons, ← onBench_step s hid]
    exact ih ((sameSetup_step rig s).queueId.trans hid)

end Rig

end VideoOutput
