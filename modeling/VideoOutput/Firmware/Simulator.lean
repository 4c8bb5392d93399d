import VideoOutput.Firmware.Basic

/-!
# A simulated display

A firmware without hardware: a display given by its identification data and the modes it accepts. It
can be plugged and unplugged, exchanged, and made to fail at every call. What it announces goes to
the attached queue, if there is one.

The service has to be started before it answers, and answers nothing while it is failing
(`refusal?`). A display that is not attached offers no modes and has no data to read, but a mode can
be set for it; an attached one refuses the modes that it does not list. The mode in use is kept
through all of this, and is the first of the display's modes at the beginning.

There is one output for each kind of connector, both on at first, and a start of the service leaves
them as they are. Exchanging the display is announced by nobody, so what a controller knows of the
earlier one is out of date until the next event. Stopping the service detaches the queue, and what
happens to the display from then on is lost to the controller.
-/

namespace VideoOutput.Firmware

/-- A simulated display and the service that drives it. -/
structure Simulator where
  blob : List UInt8
  modes : List Mode.ModeCode
  isConnected : Bool
  /-- The mode in use. -/
  mode : Mode.ModeCode
  hdmiEnabled : Bool := true
  compositeEnabled : Bool := true
  /-- The service was started. -/
  isActive : Bool := false
  /-- Every call that can fail does. -/
  isFailing : Bool := false
  /-- The queue that events are announced to. -/
  attached : Option Connector.QueueId := none
  deriving DecidableEq

namespace Simulator

/-- A display that was never used. Its first mode is in use, or 720p if it has none. -/
def fresh (blob : List UInt8) (modes : List Mode.ModeCode) (isConnected : Bool) : Simulator :=
  { blob, modes, isConnected, mode := modes.headD 4 }

/-- The output of the connectors of a kind is on. -/
def isEnabled (sim : Simulator) : Connector.Kind → Bool
  | .hdmi => sim.hdmiEnabled
  | .composite => sim.compositeEnabled

/-- Exchange the display without announcing it. -/
def replaceDisplay (sim : Simulator) (blob : List UInt8) (modes : List Mode.ModeCode) : Simulator :=
  { sim with blob, modes }

/-- Plug the display in or out. -/
def plugged (sim : Simulator) (isConnected : Bool) : Simulator :=
  { sim with isConnected }

/-- Where an event on the HDMI connector with a number goes. -/
def announcement (sim : Simulator) (index : UInt8) (event : Connector.Event) :
    Option (Connector.QueueId × Connector.Notice) :=
  sim.attached.map fun queue => (queue, ⟨index, event⟩)

/-- The entry for an event that nobody is told of. -/
def unattachedLog (sim : Simulator) (event : Connector.Event) : List Log.Entry :=
  match sim.attached with
  | some _ => []
  | none => [⟨.debug, "no event sink attached", [("event", .text event.label)]⟩]

/-- The event that announces a plugged or an unplugged display. -/
def hotplugEvent (isConnected : Bool) : Connector.Event :=
  if isConnected then .connected else .disconnected

/-- Why no call is answered at the moment. -/
def refusal? (sim : Simulator) : Option Failure :=
  if sim.isFailing then some ⟨"firmware not responding"⟩
  else if sim.isActive then none
  else some ⟨"service not initialized"⟩

/-- Answer a call unless the service refuses it. -/
def answering {α : Type} (sim : Simulator) (reply : Reply Simulator α) : Reply Simulator α :=
  match sim.refusal? with
  | some failure => ⟨.error failure, sim, []⟩
  | none => reply

/-- The state of the link. The aspect ratio is that of the mode, or 16:9 if the mode is unknown. -/
def currentLink (sim : Simulator) : LinkState :=
  { isConnected := sim.isConnected
    mode := sim.mode
    aspect := ((Mode.Catalog.platform.resolutionOf? sim.mode).map Mode.Resolution.aspect).getD
      .sixteenByNine }

/-- Use a mode, if the attached display accepts it. -/
def useMode (sim : Simulator) (code : Mode.ModeCode) : Reply Simulator Unit :=
  if sim.isConnected && !sim.modes.contains code then
    ⟨.error ⟨"sink does not accept mode " ++ toString code.toNat⟩, sim, []⟩
  else ⟨.ok (), { sim with mode := code }, []⟩

/-- Switch the output of the connectors of a kind on or off. -/
def switch (sim : Simulator) (enabled : Bool) : Connector.Kind → Simulator
  | .hdmi => { sim with hdmiEnabled := enabled }
  | .composite => { sim with compositeEnabled := enabled }

instance : Firmware Simulator where
  start sim :=
    if sim.isFailing then ⟨.error ⟨"firmware not responding"⟩, sim, []⟩
    else ⟨.ok (), { sim with isActive := true }, []⟩
  stop sim := { sim with isActive := false, attached := none }
  readBlob sim :=
    sim.answering <|
      if sim.isConnected then ⟨.ok sim.blob, sim, []⟩
      else ⟨.error ⟨"no display attached"⟩, sim, []⟩
  linkState sim :=
    sim.answering ⟨.ok sim.currentLink, sim, Mode.Catalog.platform.resolutionOfLog sim.mode⟩
  modes sim := sim.answering ⟨.ok (if sim.isConnected then sim.modes else []), sim, []⟩
  setMode code sim := sim.answering (sim.useMode code)
  setEnabled kind enabled sim := sim.answering ⟨.ok (), sim.switch enabled kind, []⟩
  attach queue sim := { sim with attached := some queue }

end Simulator

end VideoOutput.Firmware
