import VideoOutput.Firmware.Basic

/-!
# Injected faults

A firmware around another one, in which chosen calls fail with a given reason and do not reach the
firmware inside. All other calls are passed on.

A fault is set on a kind of call and stays until it is taken off, so a sequence of requests can run
into it again and again. The call that fails leaves the firmware inside as it was. Stopping and
attaching have no faults, since they cannot fail. Together with a simulated display this is the
firmware that runs are checked against: the display decides what is true, the faults decide what the
controller is told.
-/

namespace VideoOutput.Firmware

/-- The reasons with which calls fail. -/
structure Faults where
  start : Option String := none
  readBlob : Option String := none
  linkState : Option String := none
  modes : Option String := none
  setMode : Option String := none
  setEnabled : Option String := none
  deriving DecidableEq

/-- A firmware with injected faults. -/
structure Faulty (σ : Type) where
  inner : σ
  faults : Faults := {}

namespace Faulty

/-- Make a call unless it has a fault. -/
def unlessFault {σ α : Type} (firmware : Faulty σ) (fault : Option String)
    (call : σ → Reply σ α) : Reply (Faulty σ) α :=
  match fault with
  | some reason => ⟨.error ⟨reason⟩, firmware, []⟩
  | none =>
    let reply := call firmware.inner
    ⟨reply.answer, { firmware with inner := reply.state }, reply.log⟩

instance {σ : Type} [Firmware σ] : Firmware (Faulty σ) where
  start firmware := firmware.unlessFault firmware.faults.start start
  stop firmware := { firmware with inner := stop firmware.inner }
  readBlob firmware := firmware.unlessFault firmware.faults.readBlob readBlob
  linkState firmware := firmware.unlessFault firmware.faults.linkState linkState
  modes firmware := firmware.unlessFault firmware.faults.modes modes
  setMode code firmware := firmware.unlessFault firmware.faults.setMode (setMode code)
  setEnabled kind enabled firmware :=
    firmware.unlessFault firmware.faults.setEnabled (setEnabled kind enabled)
  attach queue firmware := { firmware with inner := attach queue firmware.inner }

end Faulty

end VideoOutput.Firmware
