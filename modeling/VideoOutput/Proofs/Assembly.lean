import VideoOutput.Proofs.Rig

/-!
# A controller over any firmware

An `Assembly` is one controller together with the firmware it drives, whatever that is. Its runs are
lists of steps: requests to the controller, notices pushed to the queue or drained from it, and
changes of the firmware that nobody asked for. A rig is an assembly with a simulated display, and
each of its runs is a run here (`Rig.exists_run_eq`).

What is proved here makes no assumption on the answers of the firmware. They may contradict each
other, and the firmware may change between two calls in any way (`Step.firmware`), so theorems about
runs hold of real services as far as these only answer calls and announce events. Where a property
needs a display that behaves, it is stated of a rig.

A cycle begins with a start that succeeds. `starts` counts these in a run, and the generation of the
controller is that count in 32 bits (`generation_run`). A start that fails in the middle, after the
firmware started and before the link was told, begins no cycle and leaves the generation as it was.
-/

namespace VideoOutput

variable {σ : Type}

namespace Controller

/-- The generation goes up with a start that succeeds, and with nothing else. -/
theorem Effect.generation [Firmware σ] {c c' : Controller} {fw fw' : σ} {r : Request}
    {answer : Except Error Answer} (he : Effect c fw r answer c' fw') :
    (r = .start ∧ answer.isOk = true ∧ c'.generation = c.generation + 1) ∨
      (¬ (r = .start ∧ answer.isOk = true) ∧ c'.generation = c.generation) := by
  cases he with
  | started => exact .inl ⟨rfl, rfl, rfl⟩
  | asked _ hq =>
    refine .inr ⟨fun h => ?_, rfl⟩
    rw [h.1] at hq
    exact absurd hq (by simp [Request.isQuestion])
  | refused | startRefused | linkRefused | switchRefused | modeRefused | forgotten =>
    exact .inr ⟨fun h => absurd h.2 (by simp [Except.isOk, Except.toBool]), rfl⟩
  | stopped | switched | modeSet | remembered => exact .inr ⟨fun h => absurd h.1 (by simp), rfl⟩
  | @registered eventClass =>
    refine .inr ⟨fun h => absurd h.1 (by simp), ?_⟩
    cases eventClass <;> rfl
  | dispatched =>
    exact .inr ⟨fun h => absurd h.1 (by simp),
      dispatch_induction (P := fun c' => c'.generation = c.generation) rfl fun _ _ _ h => h⟩

end Controller

/-- A controller and the firmware it drives. -/
structure Assembly (σ : Type) where
  controller : Controller
  firmware : σ

namespace Assembly

/-- A controller that was never started. -/
def fresh (id : Connector.QueueId) (settings : Settings) (fw : σ) :
    Except SettingsError (Assembly σ) :=
  (Controller.ofSettings id settings).map fun controller => ⟨controller, fw⟩

/-- A fresh assembly exists for all settings that pass the check. -/
theorem fresh_of_check {settings : Settings} (hvalid : settings.check = .ok settings)
    (id : Connector.QueueId) (fw : σ) :
    ∃ catalog, fresh id settings fw = .ok ⟨.initial id settings catalog, fw⟩ := by
  obtain ⟨catalog, -, hmade⟩ := Controller.ofSettings_of_check hvalid id
  refine ⟨catalog, ?_⟩
  unfold fresh
  rw [hmade]
  rfl

/-- One thing that happens in a run. -/
inductive Step (σ : Type) where
  | request (request : Controller.Request)
  /-- A notice is pushed to the queue, whoever does so. -/
  | push (notice : Connector.Notice)
  /-- The queue is drained past the controller. -/
  | drain
  /-- The firmware is in another state, for whatever reason. -/
  | firmware (fw : σ)

variable [Firmware σ]

/-- Let the controller carry out a request. -/
def perform (a : Assembly σ) (request : Controller.Request) : Assembly σ :=
  let outcome := a.controller.perform a.firmware request
  ⟨outcome.controller, outcome.firmware⟩

/-- The assembly after one step. -/
def step (a : Assembly σ) : Step σ → Assembly σ
  | .request request => a.perform request
  | .push notice => { a with controller := a.controller.push notice }
  | .drain => { a with controller := a.controller.emptyQueue }
  | .firmware fw => { a with firmware := fw }

/-- The assembly after a run. -/
def run (a : Assembly σ) (steps : List (Step σ)) : Assembly σ :=
  steps.foldl step a

/-- The step is a start that succeeds. -/
def begins (a : Assembly σ) : Step σ → Bool
  | .request .start => (a.controller.perform a.firmware .start).result.isOk
  | _ => false

/-- The number of starts in a run that succeed. -/
def starts (a : Assembly σ) : List (Step σ) → Nat
  | [] => 0
  | s :: steps => (if a.begins s then 1 else 0) + starts (a.step s) steps

variable {a : Assembly σ}

/-! ## Runs -/

@[simp] theorem run_nil (a : Assembly σ) : a.run [] = a := rfl

@[simp] theorem run_cons (a : Assembly σ) (s : Step σ) (steps : List (Step σ)) :
    a.run (s :: steps) = (a.step s).run steps := rfl

theorem run_append (a : Assembly σ) (first second : List (Step σ)) :
    a.run (first ++ second) = (a.run first).run second :=
  List.foldl_append

/-- The starts of a run are counted part by part. -/
theorem starts_append (a : Assembly σ) (first second : List (Step σ)) :
    a.starts (first ++ second) = a.starts first + (a.run first).starts second := by
  induction first generalizing a with
  | nil => simp [starts]
  | cons s first ih =>
    rw [List.cons_append, starts, starts, ih, run_cons, Nat.add_assoc]

/-! ## What never changes -/

/-- No step touches what the controller was set up with. -/
theorem sameSetup_step (a : Assembly σ) (s : Step σ) :
    Controller.SameSetup a.controller (a.step s).controller := by
  cases s with
  | request request => exact (Controller.perform_isEffect a.controller a.firmware request).sameSetup
  | push notice => exact Controller.sameSetup_push _ _
  | drain => exact Controller.sameSetup_emptyQueue _
  | firmware => exact .refl _

theorem sameSetup_run (a : Assembly σ) (steps : List (Step σ)) :
    Controller.SameSetup a.controller (a.run steps).controller := by
  induction steps generalizing a with
  | nil => exact .refl _
  | cons s steps ih => exact (sameSetup_step a s).trans (ih (a.step s))

/-- After any run the connectors stand where the settings put them. -/
theorem places_run {settings : Settings} {id : Connector.QueueId} {catalog : Mode.Catalog}
    {fw : σ} (steps : List (Step σ)) :
    ((Assembly.mk (.initial id settings catalog) fw).run steps).controller.connectors.map
      Controller.place = settings.places :=
  (sameSetup_run _ steps).places.trans (Controller.places_initial id settings catalog)

/-! ## Cycles -/

/-- What the stop of an active controller does. -/
theorem step_stop (h : a.controller.isActive = true) :
    a.step (.request .stop) = ⟨a.controller.deactivated, Firmware.stop a.firmware⟩ := by
  show Assembly.mk (a.controller.stop a.firmware).controller
    (a.controller.stop a.firmware).firmware = _
  unfold Controller.stop
  rw [h]
  rfl

/-- While the controller is active no start succeeds. -/
theorem begins_of_isActive (h : a.controller.isActive = true) (s : Step σ) :
    a.begins s = false := by
  cases s with
  | push | drain | firmware => rfl
  | request request =>
    cases request with
    | start =>
      show (a.controller.start a.firmware |>.answering fun _ => Controller.Answer.done).result.isOk =
        false
      unfold Controller.start
      rw [h]
      rfl
    | stop | handle | on | register | dispatch => rfl

/-! ## Generations -/

/-- The generation goes up by one exactly in a step that begins a cycle. -/
theorem generation_step (a : Assembly σ) (s : Step σ) :
    (a.step s).controller.generation =
      a.controller.generation + UInt32.ofNat (if a.begins s then 1 else 0) := by
  cases s with
  | push | drain | firmware => simp [step, begins, Controller.push, Controller.emptyQueue]
  | request request =>
    show (a.controller.perform a.firmware request).controller.generation = _
    rcases (Controller.perform_isEffect a.controller a.firmware request).generation with
      ⟨rfl, hok, hup⟩ | ⟨hno, hsame⟩
    · rw [hup, show a.begins (.request .start) = true from hok]
      rfl
    · have hbegins : a.begins (.request request) = false := by
        cases request with
        | start => exact Bool.eq_false_iff.mpr fun hok => hno ⟨rfl, hok⟩
        | _ => rfl
      rw [hsame, hbegins]
      simp

/-- **The generation is the number of starts** that succeeded, in 32 bits. -/
theorem generation_run (a : Assembly σ) (steps : List (Step σ)) :
    (a.run steps).controller.generation =
      a.controller.generation + UInt32.ofNat (a.starts steps) := by
  induction steps generalizing a with
  | nil => simp [starts]
  | cons s steps ih =>
    rw [run_cons, ih, generation_step, starts, UInt32.ofNat_add, UInt32.add_assoc]

end Assembly

/-! ## Rigs are assemblies -/

namespace Rig

/-- The controller of a rig and its display. -/
def toAssembly (rig : Rig) : Assembly Display :=
  ⟨rig.controller, rig.display⟩

/-- A display that announces an event pushes a notice, or does nothing. -/
theorem exists_run_announce (rig : Rig) (index : UInt8) (event : Connector.Event) :
    ∃ steps, (rig.announce index event).toAssembly = rig.toAssembly.run steps :=
  announce_induction (P := fun r => ∃ steps, r.toAssembly = rig.toAssembly.run steps) ⟨[], rfl⟩
    (fun notice => ⟨[.push notice], rfl⟩) index event

/-- Whatever happens in a rig happens in at most two steps of an assembly. -/
theorem exists_run_step (rig : Rig) (s : Step) :
    ∃ steps, (rig.step s).toAssembly = rig.toAssembly.run steps := by
  cases s with
  | request request => exact ⟨[.request request], rfl⟩
  | push notice => exact ⟨[.push notice], rfl⟩
  | drain => exact ⟨[.drain], rfl⟩
  | hotplug isConnected =>
    obtain ⟨steps, h⟩ := exists_run_announce
      (rig.changeSimulator fun sim => sim.plugged isConnected) 0
      (Firmware.Simulator.hotplugEvent isConnected)
    exact ⟨.firmware _ :: steps, h⟩
  | reportHdcp status => exact exists_run_announce rig 0 _
  | replaceDisplay | setFailing | setFaults => exact ⟨[.firmware _], rfl⟩

/-- A run of a rig is a run of its controller over its display. -/
theorem exists_run_eq (rig : Rig) (steps : List Step) :
    ∃ steps', (rig.run steps).toAssembly = rig.toAssembly.run steps' := by
  induction steps generalizing rig with
  | nil => exact ⟨[], rfl⟩
  | cons s steps ih =>
    obtain ⟨first, hfirst⟩ := exists_run_step rig s
    obtain ⟨second, hsecond⟩ := ih (rig.step s)
    refine ⟨first ++ second, ?_⟩
    rw [Assembly.run_append, ← hfirst]
    exact hsecond

end Rig

end VideoOutput
