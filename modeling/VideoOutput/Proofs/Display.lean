import VideoOutput.Bench
import VideoOutput.Proofs.Effect

/-!
# What a controller does to a simulated display

The calls of the firmware over a simulated display with faults. Questions change nothing, a call
that fails changes nothing, and each of the others changes one field of the simulation: the start
makes it active, a switch writes an output, a mode is put in use. The modules on runs quote these
and never open the simulator.

There are two ways for a call to fail. A fault is set on it from outside, and then the simulation is
not asked at all (`unlessFault_error`); or the simulation refuses it, because it does not run or has
no such mode (`answering_error`). In both the display is as before, which is what makes a failed
request harmless. The firmware in general promises nothing of the kind, so it is a fact about this
display and stated as one.

`IsInOrder` is the display of a session without trouble: no call has a fault and the simulation is
not told to fail. For such a display the second half of the module says the opposite: the start and
the questions succeed, and so does every mode that the display offers. It is the hypothesis under
which success can be promised.
-/

namespace VideoOutput.Display

open Firmware (Asked)

/-- The display with a change to the simulation inside it. -/
def changed (display : Display) (change : Firmware.Simulator → Firmware.Simulator) : Display :=
  { display with inner := change display.inner }

/-- A call whose own answer leaves the simulation alone leaves it alone also where it is refused. -/
theorem answering_state {α : Type} (sim : Firmware.Simulator)
    {reply : Firmware.Reply Firmware.Simulator α} (h : reply.state = sim) :
    (sim.answering reply).state = sim := by
  unfold Firmware.Simulator.answering
  split
  next => rfl
  next => exact h

/-- A call that is passed on and leaves the simulation alone leaves the display alone. -/
theorem unlessFault_state {α : Type} (display : Display) (fault : Option String)
    {call : Firmware.Simulator → Firmware.Reply Firmware.Simulator α}
    (h : (call display.inner).state = display.inner) :
    (display.unlessFault fault call).state = display := by
  unfold Firmware.Faulty.unlessFault
  cases fault with
  | some reason => rfl
  | none =>
    show { display with inner := (call display.inner).state } = display
    rw [h]

/-- Reading the blob, asking for the link and asking for the modes change nothing. -/
theorem readBlob_state (display : Display) : (Firmware.readBlob display).state = display := by
  refine unlessFault_state display _ (answering_state _ ?_)
  split <;> rfl

theorem linkState_state (display : Display) : (Firmware.linkState display).state = display :=
  unlessFault_state display _ (answering_state _ rfl)

theorem modes_state (display : Display) : (Firmware.modes display).state = display :=
  unlessFault_state display _ (answering_state _ rfl)

/-- A display does not notice questions. -/
theorem eq_of_asked {display display' : Display} (h : Asked display display') :
    display' = display := by
  induction h with
  | nothing => rfl
  | blob _ ih => rw [readBlob_state, ih]
  | link _ ih => rw [linkState_state, ih]
  | modes _ ih => rw [modes_state, ih]

/-- A call that succeeds was passed on, and does what it does to the simulation. -/
theorem unlessFault_ok {α : Type} {display : Display} {fault : Option String}
    {call : Firmware.Simulator → Firmware.Reply Firmware.Simulator α} {a : α}
    {change : Firmware.Simulator → Firmware.Simulator}
    (hcall : (call display.inner).answer = .ok a → (call display.inner).state = change display.inner)
    (h : (display.unlessFault fault call).answer = .ok a) :
    (display.unlessFault fault call).state = changed display change := by
  unfold Firmware.Faulty.unlessFault at h ⊢
  -- a fault would have answered with an error
  cases fault with
  | some reason => exact absurd h (by simp)
  | none =>
    show { display with inner := (call display.inner).state } = changed display change
    rw [hcall h]
    rfl

/-- A call that fails before or in a simulation that it then leaves alone changes nothing. -/
theorem unlessFault_error {α : Type} {display : Display} {fault : Option String}
    {call : Firmware.Simulator → Firmware.Reply Firmware.Simulator α} {failure : Firmware.Failure}
    (hcall : (call display.inner).answer = .error failure → (call display.inner).state = display.inner)
    (h : (display.unlessFault fault call).answer = .error failure) :
    (display.unlessFault fault call).state = display := by
  cases fault with
  | some reason => rfl
  | none => exact unlessFault_state display none (hcall h)

theorem answering_ok {α : Type} {sim : Firmware.Simulator}
    {reply : Firmware.Reply Firmware.Simulator α} {a : α}
    (h : (sim.answering reply).answer = .ok a) : sim.answering reply = reply := by
  unfold Firmware.Simulator.answering at h ⊢
  split at h
  next => exact absurd h (by simp)
  next hr => simp

theorem answering_error {α : Type} {sim : Firmware.Simulator}
    {reply : Firmware.Reply Firmware.Simulator α} {failure : Firmware.Failure}
    (hreply : reply.answer = .error failure → reply.state = sim)
    (h : (sim.answering reply).answer = .error failure) :
    (sim.answering reply).state = sim := by
  unfold Firmware.Simulator.answering at h ⊢
  split
  next => rfl
  next hr =>
    rw [hr] at h
    exact hreply h

/-- A start fails if the simulation was told to fail, and else makes it active. -/
theorem simulator_start (sim : Firmware.Simulator) :
    Firmware.start sim =
      if sim.isFailing then ⟨.error ⟨"firmware not responding"⟩, sim, []⟩
      else ⟨.ok (), { sim with isActive := true }, []⟩ := rfl

theorem start_of_error {display : Display} {failure : Firmware.Failure}
    (h : (Firmware.start display).answer = .error failure) :
    (Firmware.start display).state = display := by
  refine unlessFault_error (fun hc => ?_) h
  rw [simulator_start] at hc ⊢
  split at hc
  next hf => rw [if_pos hf]
  next => exact absurd hc (by simp)

/-- A start that succeeds makes the display active and changes nothing else. -/
theorem start_of_ok {display : Display} (h : (Firmware.start display).answer = .ok ()) :
    (Firmware.start display).state = changed display fun sim => { sim with isActive := true } := by
  refine unlessFault_ok (fun hc => ?_) h
  rw [simulator_start] at hc ⊢
  split at hc
  next => exact absurd hc (by simp)
  next hf => rw [if_neg hf]

theorem setEnabled_of_error {display : Display} {kind : Connector.Kind} {enabled : Bool}
    {failure : Firmware.Failure}
    (h : (Firmware.setEnabled kind enabled display).answer = .error failure) :
    (Firmware.setEnabled kind enabled display).state = display :=
  unlessFault_error (answering_error fun hr => absurd hr (by simp)) h

/-- A switch that succeeds writes the one output it names. -/
theorem setEnabled_of_ok {display : Display} {kind : Connector.Kind} {enabled : Bool}
    (h : (Firmware.setEnabled kind enabled display).answer = .ok ()) :
    (Firmware.setEnabled kind enabled display).state =
      changed display fun sim => sim.switch enabled kind :=
  unlessFault_ok (fun hc => congrArg Firmware.Reply.state (answering_ok hc)) h

theorem useMode_of_error {sim : Firmware.Simulator} {code : Mode.ModeCode}
    {failure : Firmware.Failure} (h : (sim.useMode code).answer = .error failure) :
    (sim.useMode code).state = sim := by
  unfold Firmware.Simulator.useMode at h ⊢
  split
  next => rfl
  next hm =>
    rw [if_neg hm] at h
    exact absurd h (by simp)

/-- A mode that is refused is not used, whether a fault or the display refused it. -/
theorem setMode_of_error {display : Display} {code : Mode.ModeCode} {failure : Firmware.Failure}
    (h : (Firmware.setMode code display).answer = .error failure) :
    (Firmware.setMode code display).state = display :=
  unlessFault_error (answering_error useMode_of_error) h

theorem useMode_of_ok {sim : Firmware.Simulator} {code : Mode.ModeCode}
    (h : (sim.useMode code).answer = .ok ()) : (sim.useMode code).state = { sim with mode := code } := by
  unfold Firmware.Simulator.useMode at h ⊢
  split
  next hm =>
    rw [if_pos hm] at h
    exact absurd h (by simp)
  next => rfl

/-- A mode that is accepted is the one in use, and nothing else changes. -/
theorem setMode_of_ok {display : Display} {code : Mode.ModeCode}
    (h : (Firmware.setMode code display).answer = .ok ()) :
    (Firmware.setMode code display).state = changed display fun sim => { sim with mode := code } := by
  refine unlessFault_ok (fun hc => ?_) h
  have heq : Firmware.setMode code display.inner = display.inner.useMode code := answering_ok hc
  rw [heq] at hc ⊢
  exact useMode_of_ok hc

/-- Asking at a start whether a display is attached changes no more than the start did. -/
theorem askedAtStart_state {c : Controller} {display : Display}
    (h : (Firmware.start display).answer = .ok ()) :
    (c.askedAtStart display).state =
      changed display fun sim => { sim with isActive := true, attached := some c.queueId } := by
  have hattach : Firmware.attach c.queueId (Firmware.start display).state =
      changed display fun sim => { sim with isActive := true, attached := some c.queueId } := by
    rw [start_of_ok h]
    rfl
  -- without an HDMI connector the display is not asked at all
  unfold Controller.askedAtStart Controller.askConnected
  rw [hattach]
  split
  next => exact linkState_state _
  next => rfl

/-! ## What the answers say -/

/-- An answer that comes in spite of the faults is the answer of the simulation. -/
theorem unlessFault_answer {α : Type} {display : Display} {fault : Option String}
    {call : Firmware.Simulator → Firmware.Reply Firmware.Simulator α} {a : α}
    (h : (display.unlessFault fault call).answer = .ok a) : (call display.inner).answer = .ok a := by
  cases fault with
  | some reason => exact absurd h (by simp [Firmware.Faulty.unlessFault])
  | none => exact h

/-- The state of the link is told unless a fault is set on the call or the service refuses it. -/
theorem linkState_eq_ok_iff {display : Display} {link : Firmware.LinkState} :
    (Firmware.linkState display).answer = .ok link ↔
      display.faults.linkState = none ∧ display.inner.refusal? = none ∧
        link = display.inner.currentLink := by
  have hcall : Firmware.linkState display =
      display.unlessFault display.faults.linkState Firmware.linkState := rfl
  rw [hcall]
  unfold Firmware.Faulty.unlessFault
  cases display.faults.linkState with
  | some reason => simp
  | none =>
    show (display.inner.answering _).answer = .ok link ↔ _
    unfold Firmware.Simulator.answering
    cases display.inner.refusal? with
    | some failure => simp
    | none => simp [eq_comm]

/-- The state of the link is told as it is, if it is told at all. -/
theorem linkState_of_ok {display : Display} {link : Firmware.LinkState}
    (h : (Firmware.linkState display).answer = .ok link) : link = display.inner.currentLink :=
  (linkState_eq_ok_iff.mp h).2.2

/-- The modes that a display offers. One that is not attached offers none. -/
def offered (display : Display) : List Mode.ModeCode :=
  if display.inner.isConnected then display.inner.modes else []

/-- The modes are told as they are, if they are told at all. -/
theorem modes_of_ok {display : Display} {codes : List Mode.ModeCode}
    (h : (Firmware.modes display).answer = .ok codes) : codes = display.offered := by
  have hsim : (Firmware.modes display.inner).answer = .ok codes := unlessFault_answer h
  have hreply := congrArg Firmware.Reply.answer (answering_ok hsim)
  exact (Except.ok.inj (hreply.symm.trans hsim)).symm

/-- What is learnt at a start about the link is true, if there is an HDMI connector to ask for. -/
theorem askedAtStart_of_ok {c : Controller} {display : Display} {isConnected : Bool}
    (hhdmi : c.hasHdmi = true) (hs : (Firmware.start display).answer = .ok ())
    (h : (c.askedAtStart display).answer = .ok isConnected) :
    isConnected = display.inner.isConnected := by
  unfold Controller.askedAtStart Controller.askConnected at h
  rw [if_pos hhdmi, start_of_ok hs] at h
  obtain ⟨link, hlink, rfl⟩ := Controller.exists_of_map_eq_ok h
  rw [linkState_of_ok hlink]
  rfl

/-! ## Displays that answer -/

/-- The firmware of a display responds, and no fault is set on its calls. -/
structure IsInOrder (display : Display) : Prop where
  faults : display.faults = {}
  responding : display.inner.isFailing = false

theorem IsInOrder.start {display : Display} (h : IsInOrder display) :
    (Firmware.start display).answer = .ok () := by
  obtain ⟨sim, faults⟩ := display
  obtain ⟨rfl, hresponding⟩ := h
  show (Firmware.start sim).answer = .ok ()
  rw [simulator_start, show sim.isFailing = false from hresponding]
  rfl

/-- A service that runs and responds refuses nothing. -/
theorem IsInOrder.refusal? {display : Display} (h : IsInOrder display)
    (hrunning : display.inner.isActive = true) : display.inner.refusal? = none := by
  unfold Firmware.Simulator.refusal?
  rw [h.responding, hrunning]
  rfl

theorem IsInOrder.linkState {display : Display} (h : IsInOrder display)
    (hrunning : display.inner.isActive = true) :
    (Firmware.linkState display).answer = .ok display.inner.currentLink := by
  refine linkState_eq_ok_iff.mpr ⟨?_, h.refusal? hrunning, rfl⟩
  rw [h.faults]

/-- A display takes every mode that it accepts, attached or not. -/
theorem IsInOrder.setMode {display : Display} (h : IsInOrder display)
    (hrunning : display.inner.isActive = true) {code : Mode.ModeCode}
    (hcode : code ∈ display.inner.modes) : (Firmware.setMode code display).answer = .ok () := by
  have hready := h.refusal? hrunning
  obtain ⟨sim, faults⟩ := display
  obtain ⟨rfl, -⟩ := h
  show (sim.answering (sim.useMode code)).answer = .ok ()
  unfold Firmware.Simulator.answering
  rw [show sim.refusal? = none from hready]
  have htaken : ¬ (sim.isConnected && !sim.modes.contains code) = true := by
    rw [List.contains_iff_mem.mpr hcode]
    simp
  unfold Firmware.Simulator.useMode
  rw [if_neg htaken]

end VideoOutput.Display
