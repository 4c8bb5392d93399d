import VideoOutput.Controller.Request
import VideoOutput.Firmware.Faulty
import VideoOutput.Firmware.Simulator

/-!
# The bench

Simulated displays and the controllers that drive them, all known by number. Several controllers may
share a display. A display announces its events to the queue that was attached last, whichever
controller that queue belongs to; the number of a controller is the identity of its queue.

The bench is where the parts meet that know nothing of each other. A controller does not know its
display and carries a queue but not the displays that push to it; a display knows the number of a
queue and not the queue. So the bench passes every request of a controller to the display of its
station, and every announcement of a display to the queue with the attached number.

A request or a call that names a display or a controller that is not there has no result at all. An
announcement to a queue that is not there is lost, and so is one of a display that does not exist.
Theorems about runs are stated of one controller with its own display, which is a bench with a
single station.
-/

namespace VideoOutput

/-- A simulated display into which faults can be injected. -/
abbrev Display := Firmware.Faulty Firmware.Simulator

/-- A controller and the number of the display it drives. -/
structure Bench.Station where
  controller : Controller
  display : Nat

/-- Displays and controllers, by number. -/
structure Bench where
  displays : List Display := []
  stations : List Bench.Station := []

namespace Bench

/-- Put a display that was never used on the bench. -/
def addDisplay (bench : Bench) (sim : Firmware.Simulator) : Bench :=
  { bench with displays := bench.displays ++ [⟨sim, {}⟩] }

/-- Put a controller on the bench that drives a display. -/
def addStation (bench : Bench) (display : Nat) (settings : Settings) :
    Except SettingsError Bench :=
  (Controller.ofSettings bench.stations.length settings).map fun controller =>
    { bench with stations := bench.stations ++ [⟨controller, display⟩] }

/-- Change a display. -/
def changeDisplay (bench : Bench) (n : Nat) (change : Display → Display) : Bench :=
  { bench with displays := bench.displays.modify n change }

/-- Change the simulation inside a display. -/
def changeSimulator (bench : Bench) (n : Nat)
    (change : Firmware.Simulator → Firmware.Simulator) : Bench :=
  bench.changeDisplay n fun display => { display with inner := change display.inner }

/-- Change a controller. -/
def changeController (bench : Bench) (n : Nat) (change : Controller → Controller) : Bench :=
  { bench with
    stations := bench.stations.modify n fun station =>
      { station with controller := change station.controller } }

/-- Push a notice to the queue of a controller. -/
def push (bench : Bench) (n : Nat) (notice : Connector.Notice) : Bench × List Log.Entry :=
  (bench.changeController n fun c => c.push notice,
    match bench.stations[n]? with
    | some station => station.controller.queue.pushLog
    | none => [])

/-- Let a display announce an event on the HDMI connector with a number. -/
def announce (bench : Bench) (n : Nat) (index : UInt8) (event : Connector.Event) :
    Bench × List Log.Entry :=
  match bench.displays[n]? with
  | none => (bench, [])
  | some display =>
    match display.inner.announcement index event with
    | some (queue, notice) => bench.push queue notice
    | none => (bench, display.inner.unattachedLog event)

/-- Plug a display in or out. -/
def hotplug (bench : Bench) (n : Nat) (isConnected : Bool) : Bench × List Log.Entry :=
  (bench.changeSimulator n fun sim => sim.plugged isConnected).announce n 0
    (Firmware.Simulator.hotplugEvent isConnected)

/-- Call the firmware of a display directly. -/
def call {α : Type} (bench : Bench) (n : Nat) (call : Display → Firmware.Reply Display α) :
    Option (Except Firmware.Failure α × Bench × List Log.Entry) :=
  (bench.displays[n]?).map fun display =>
    let reply := call display
    (reply.answer, bench.changeDisplay n fun _ => reply.state, reply.log)

/-- Let a controller carry out a request. -/
def perform (bench : Bench) (n : Nat) (request : Controller.Request) :
    Option (Except Controller.Error Controller.Answer × Bench × List Log.Entry) := do
  let station ← bench.stations[n]?
  let display ← bench.displays[station.display]?
  let outcome := station.controller.perform display request
  let bench := bench.changeDisplay station.display fun _ => outcome.firmware
  return (outcome.result, bench.changeController n fun _ => outcome.controller, outcome.log)

end Bench

end VideoOutput
