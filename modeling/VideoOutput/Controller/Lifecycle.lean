import VideoOutput.Controller.Basic

/-!
# Starting and stopping

A start begins a generation: the firmware is started, the queue attached and emptied, and every
connector reset. If the firmware cannot tell the state of the link it is stopped again and the
controller stays inactive. A stop resets the connectors and forgets the callbacks.

A start that fails is not without a trace. If the firmware did not start, nothing has changed. If it
started and failed on the link, the queue has been emptied by then, and what waited in it is gone
although the controller is as inactive as before.

Outputs are not part of it. A start marks every connector as enabled and makes no call for it, and a
stop marks every connector as not enabled likewise; what the firmware does with its outputs in the
meantime is its own matter. The theory has the exact rule for when the mark and the output agree.

The generation counts in 32 bits and goes up by one with every start that succeeds.
-/

namespace VideoOutput.Controller

variable {σ : Type} [Firmware σ]

/-- The state of a connector right after a start. -/
def startState (isConnected : Bool) (connector : Connector) : Connector.State :=
  match connector.kind, isConnected with
  | .hdmi, true => .connected
  | _, _ => .ready

/-- The controller at the begin of the next generation. -/
def activated (c : Controller) (isConnected : Bool) : Controller :=
  { c with
    generation := c.generation + 1
    connectors := c.connectors.map fun connector =>
      connector.reset (startState isConnected connector)
    isActive := true }

/-- The entry for a successful start. -/
def activatedLog (c : Controller) (isConnected : Bool) : List Log.Entry :=
  [⟨.debug, "video ports initialized",
    [("generation", .number (c.generation + 1).toNat), ("connected", .flag isConnected)]⟩]

/-- Ask the firmware whether a display is attached. Without HDMI connectors there is no need to. -/
def askConnected (c : Controller) (fw : σ) : Firmware.Reply σ Bool :=
  if c.hasHdmi then
    let reply := Firmware.linkState fw
    ⟨reply.answer.map Firmware.LinkState.isConnected, reply.state, reply.log⟩
  else ⟨.ok false, fw, []⟩

/-- Start the firmware and begin a generation. The queue is emptied before the link is asked for, and
that this is not done the other way round cannot be observed here: steps follow one another, so no
notice arrives between the two, and the answer of the firmware does not depend on the queue. -/
def start (c : Controller) (fw : σ) : Outcome σ Unit :=
  if c.isActive then c.reading fw (.error .alreadyActive)
  else
    let started := Firmware.start fw
    match started.answer with
    | .error failure => ⟨.error (.firmware failure), c, started.state, started.log⟩
    | .ok () =>
      let c := c.emptyQueue
      let asked := c.askConnected (Firmware.attach c.queueId started.state)
      match asked.answer with
      | .error failure =>
        ⟨.error (.firmware failure), c, Firmware.stop asked.state, started.log ++ asked.log⟩
      | .ok isConnected =>
        ⟨.ok (), c.activated isConnected, asked.state,
          started.log ++ asked.log ++ c.activatedLog isConnected⟩

/-- The controller after the end of a generation. -/
def deactivated (c : Controller) : Controller :=
  { c with
    connectors := c.connectors.map fun connector => connector.reset .uninitialized
    displayCallback := none
    hdcpCallback := none
    isActive := false }

/-- Stop the firmware and end the generation. -/
def stop (c : Controller) (fw : σ) : Outcome σ Unit :=
  if !c.isActive then c.reading fw (.error .notActive)
  else
    ⟨.ok (), c.deactivated, Firmware.stop fw,
      [⟨.debug, "video ports terminated", [("generation", .number c.generation.toNat)]⟩]⟩

end VideoOutput.Controller
