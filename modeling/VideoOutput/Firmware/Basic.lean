import VideoOutput.Connector.Basic
import VideoOutput.Connector.Queue
import VideoOutput.Mode.Catalog

/-!
# The display firmware

What the controller needs of the firmware that drives the hardware. The firmware is any state `σ`
with the calls of `Firmware σ`; every call answers or fails and leaves a new state behind. Nothing
else is assumed, so a statement about every firmware covers one that fails at will.

The firmware announces events by pushing notices to the queue that was attached last.

There are no laws in the class. A firmware may report a mode that was never set, accept a mode and
not use it, tell two states of the link in a row, or change its state when it is only asked. What a
theorem says over every firmware it says of all of these. Where more is needed, such as that the
mode which was set is the one in use, it is stated of the simulated display.

Two calls cannot fail: to stop the service, and to attach a queue. A queue is attached by its
identity, and one that is attached replaces the one before. A failure is a reason in words, and the
controller hands it on as it is.
-/

namespace VideoOutput

namespace Firmware

/-- A failure reported by the firmware. -/
structure Failure where
  reason : String
  deriving DecidableEq

/-- The wording of a failure. -/
def Failure.message (failure : Failure) : String :=
  "display sdk: " ++ failure.reason

/-- The state of the HDMI link. -/
structure LinkState where
  isConnected : Bool
  mode : Mode.ModeCode
  aspect : Mode.Aspect
  deriving DecidableEq

/-- What a call leaves behind. -/
structure Reply (σ α : Type) where
  answer : Except Failure α
  state : σ
  log : List Log.Entry := []

end Firmware

/-- The calls that the controller makes. -/
class Firmware (σ : Type) where
  /-- Start the service. -/
  start : σ → Firmware.Reply σ Unit
  /-- Stop the service. -/
  stop : σ → σ
  /-- The identification data of the attached display. -/
  readBlob : σ → Firmware.Reply σ (List UInt8)
  /-- The state of the HDMI link. -/
  linkState : σ → Firmware.Reply σ Firmware.LinkState
  /-- The mode codes that the attached display accepts. -/
  modes : σ → Firmware.Reply σ (List Mode.ModeCode)
  /-- Request a mode. -/
  setMode : Mode.ModeCode → σ → Firmware.Reply σ Unit
  /-- Switch the output of the connectors of a kind on or off. -/
  setEnabled : Connector.Kind → Bool → σ → Firmware.Reply σ Unit
  /-- Announce events to this queue from now on. -/
  attach : Connector.QueueId → σ → σ

end VideoOutput
