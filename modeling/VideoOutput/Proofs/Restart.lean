import VideoOutput.Proofs.Consistency
import VideoOutput.Proofs.Refusal

/-!
# A new cycle is like the first

Whatever happened to a controller, after it was stopped and started again it is in the state of one
that was never used before (`restart_eq_fresh_start`). A start resets every connector and empties
the queue; a stop forgets the callbacks, and nothing registers one until the next start. What is
left of earlier cycles are two counters: the generation, and the number of dropped notices.

The firmware may differ between the two controllers in everything but the one thing a start learns
from it, whether a display is attached (`StartsWith`).

Two controllers are compared that ran over different firmware and for different times, so the proof
does not go along the runs. It uses what every reachable state has in common: the connectors are in
the places that the settings say, and an inactive controller has no callbacks (`Consistent`). From
the places alone the connectors after a start are known (`startedAt`), and all other fields are set
by the start or are those of the settings.
-/

namespace VideoOutput

namespace Controller

variable {σ : Type} [Firmware σ] {c c' : Controller} {fw : σ} {isConnected : Bool}

/-- A start succeeds, and the firmware tells in it whether a display is attached. It is asked for
this only if there is an HDMI connector. -/
structure StartsWith (c : Controller) (fw : σ) (isConnected : Bool) : Prop where
  succeeds : (c.perform fw .start).result = .ok .done
  told : c.hasHdmi = true →
    ∃ link, (Firmware.linkState (c.attached fw)).answer = .ok link ∧
      link.isConnected = isConnected

/-- Without HDMI connectors it does not matter whether a display is attached. -/
theorem activated_of_not_hasHdmi (h : c.hasHdmi = false) (isConnected : Bool) :
    c.activated isConnected = c.activated false := by
  have hready : ∀ x ∈ c.connectors, startState isConnected x = startState false x := by
    intro x hx
    have hk : x.kind = .composite := by
      cases hk : x.kind with
      | composite => rfl
      | hdmi =>
        have hany : c.hasHdmi = true := List.any_eq_true.mpr ⟨x, hx, by rw [hk]; rfl⟩
        exact absurd (h.symm.trans hany) (by simp)
    rw [startState_composite _ hk, startState_composite _ hk]
  unfold activated
  congr 1
  apply List.map_congr_left
  intro x hx
  rw [hready x hx]

/-- A start that succeeds activates an inactive controller with what the firmware answered. -/
theorem Effect.eq_activated {fw' : σ} (he : Effect c fw .start (.ok .done) c' fw') :
    c.isActive = false ∧ ∃ asked, (c.askedAtStart fw).answer = .ok asked ∧
      c' = c.emptyQueue.activated asked := by
  cases he with
  | asked _ hq => exact absurd hq (by simp [Request.isQuestion])
  | started hidle _ hl => exact ⟨hidle, _, hl, rfl⟩

/-- A start that succeeds makes of the controller what `activated` says. -/
theorem StartsWith.controller_eq (h : c.StartsWith fw isConnected) :
    c.isActive = false ∧
      (c.perform fw .start).controller = c.emptyQueue.activated isConnected := by
  have he := perform_isEffect c fw .start
  unfold Outcome.IsEffect at he
  rw [h.succeeds] at he
  obtain ⟨hidle, asked, hl, heq⟩ := he.eq_activated
  refine ⟨hidle, heq.trans ?_⟩
  by_cases hhdmi : c.hasHdmi = true
  · obtain ⟨link, hlink, rfl⟩ := h.told hhdmi
    have htold : (c.askedAtStart fw).answer = .ok link.isConnected := by
      unfold askedAtStart askConnected
      rw [if_pos hhdmi]
      exact congrArg (Except.map Firmware.LinkState.isConnected) hlink
    rw [Except.ok.inj (htold.symm.trans hl)]
  · -- nobody asked for the link, so that the two need not agree on it
    have hnone : c.emptyQueue.hasHdmi = false := Bool.not_eq_true _ ▸ hhdmi
    rw [activated_of_not_hasHdmi hnone asked, activated_of_not_hasHdmi hnone isConnected]

theorem result_stop (hact : c.isActive = true) (fw : σ) :
    (c.perform fw .stop).result = .ok .done := by
  show ((c.stop fw).answering fun _ => .done).result = .ok .done
  unfold stop
  rw [hact]
  rfl

/-- The connector in a place right after a start. -/
def startedAt (isConnected : Bool) (p : Connector.Kind × UInt8) : Connector :=
  let x : Connector := { kind := p.1, index := p.2 }
  x.reset (startState isConnected x)

/-- Of a connector nothing but its place outlasts a start. -/
theorem connectors_activated (c : Controller) (isConnected : Bool) :
    (c.activated isConnected).connectors =
      (c.connectors.map place).map (startedAt isConnected) := by
  rw [List.map_map]
  rfl

/-- Two controllers with the same setup and the same callbacks differ after a start in their
counters at most. -/
theorem activated_eq_of_sameSetup (hs : SameSetup c c')
    (hdisplay : c'.displayCallback = c.displayCallback)
    (hhdcp : c'.hdcpCallback = c.hdcpCallback) (isConnected : Bool) :
    c'.emptyQueue.activated isConnected =
      { c.emptyQueue.activated isConnected with
        generation := c'.generation + 1
        queue := { c.queue.emptied with dropped := c'.queue.dropped } } := by
  have hconnectors : (c'.emptyQueue.activated isConnected).connectors =
      (c.emptyQueue.activated isConnected).connectors := by
    rw [connectors_activated, connectors_activated]
    exact congrArg (List.map (startedAt isConnected)) hs.places
  have hqueue : c'.queue.emptied = { c.queue.emptied with dropped := c'.queue.dropped } := by
    unfold Connector.Queue.emptied
    rw [hs.limit]
  -- all fields are set by the start, or are of the set-up, or are among the hypotheses
  calc c'.emptyQueue.activated isConnected
      = { c.emptyQueue.activated isConnected with
          catalog := c'.catalog
          checksum := c'.checksum
          connectors := (c'.emptyQueue.activated isConnected).connectors
          queueId := c'.queueId
          queue := c'.queue.emptied
          generation := c'.generation + 1
          displayCallback := c'.displayCallback
          hdcpCallback := c'.hdcpCallback } := rfl
    _ = _ := by
      rw [hs.catalog, hs.checksum, hconnectors, hs.queueId, hqueue, hdisplay, hhdcp]
      rfl

end Controller

namespace Assembly

variable {σ : Type} [Firmware σ] {settings : Settings} {a : Assembly σ}

theorem consistent_step (h : a.controller.Consistent settings) (s : Step σ) :
    (a.step s).controller.Consistent settings := by
  cases s with
  | request request =>
    exact (Controller.perform_isEffect a.controller a.firmware request).consistent h
  | push notice => exact h.push notice
  | drain => exact h.emptyQueue
  | firmware => exact h

theorem consistent_run (h : a.controller.Consistent settings) (steps : List (Step σ)) :
    (a.run steps).controller.Consistent settings := by
  induction steps generalizing a with
  | nil => exact h
  | cons s steps ih => exact ih (consistent_step h s)

/-- A start succeeds, and the firmware tells in it whether a display is attached, if asked. -/
def StartsWith (a : Assembly σ) (isConnected : Bool) : Prop :=
  a.controller.StartsWith a.firmware isConnected

/-- The same of a start that is the step of a run. -/
theorem StartsWith.controller_run {isConnected : Bool} (h : a.StartsWith isConnected) :
    (a.run [.request .start]).controller = a.controller.emptyQueue.activated isConnected :=
  h.controller_eq.2

/-- After any run a start that succeeds makes of the controller what it would have made of a fresh
one, but for the counters. -/
theorem start_run_eq {id : Connector.QueueId} {catalog : Mode.Catalog} {fw : σ}
    (hcat : Mode.Catalog.withFallback settings.fallback = .ok catalog) (steps : List (Step σ))
    {isConnected : Bool}
    (h : ((Assembly.mk (.initial id settings catalog) fw).run steps).StartsWith isConnected) :
    ∃ generation dropped,
      (((Assembly.mk (.initial id settings catalog) fw).run steps).step
          (.request .start)).controller =
        { (Controller.initial id settings catalog).emptyQueue.activated isConnected with
          generation
          queue := { (Controller.initial id settings catalog).queue.emptied with dropped } } := by
  obtain ⟨hidle, hstart⟩ := h.controller_eq
  have hconsistent := consistent_run (a := ⟨.initial id settings catalog, fw⟩)
    (Controller.consistent_initial id hcat) steps
  -- an inactive controller has no callbacks, and neither has a fresh one
  obtain ⟨-, hdisplay, hhdcp⟩ := hconsistent.inactive hidle
  have hsetup := sameSetup_run ⟨.initial id settings catalog, fw⟩ steps
  exact ⟨_, _, hstart.trans
    (Controller.activated_eq_of_sameSetup hsetup hdisplay hhdcp isConnected)⟩

/-- **A new cycle is like the first.** Take valid settings and a controller over any firmware, in
any state in which it is active. A stop succeeds; and if a start succeeds after it, at once or
later, then the controller is in the same state as another one of the same settings, over any
firmware, after its first start, provided that the firmware gives both the same answer on whether a
display is attached. The two differ at most in the queue they own, not in what waits in it, and in
the counters of generations and of dropped notices. -/
theorem restart_eq_fresh_start {σ' : Type} [Firmware σ'] (id id' : Connector.QueueId) (fw : σ)
    (fw' : σ') (hvalid : settings.check = .ok settings) :
    ∃ a b, fresh id settings fw = .ok a ∧ fresh id' settings fw' = .ok b ∧
      ∀ steps, (a.run steps).controller.isActive = true →
        ((a.run steps).controller.perform (a.run steps).firmware .stop).result = .ok .done ∧
        ∀ between isConnected,
          (a.run (steps ++ .request .stop :: between)).StartsWith isConnected →
          b.StartsWith isConnected →
          ∃ generation dropped,
            (a.run (steps ++ .request .stop :: between ++ [.request .start])).controller =
              { (b.run [.request .start]).controller with
                queueId := id
                generation
                queue := { (b.run [.request .start]).controller.queue with dropped } } := by
  obtain ⟨catalog, hcat, hmade⟩ := Controller.ofSettings_of_check hvalid id
  obtain ⟨catalog', hcat', hmade'⟩ := Controller.ofSettings_of_check hvalid id'
  obtain rfl : catalog = catalog' := Except.ok.inj (hcat.symm.trans hcat')
  refine ⟨_, _, congrArg (Except.map fun c => Assembly.mk c fw) hmade,
    congrArg (Except.map fun c => Assembly.mk c fw') hmade', ?_⟩
  intro steps hact
  constructor
  · exact Controller.result_stop hact _
  · intro between isConnected hagain hfirst
    obtain ⟨generation, dropped, heq⟩ := start_run_eq hcat _ hagain
    refine ⟨generation, dropped, ?_⟩
    rw [run_append, hfirst.controller_run]
    exact heq

/-- A cycle in which a callback is registered, a resolution requested, a list remembered, content
protection reported and a notice dropped, and another one waits, leaves no trace but the counters. -/
theorem connectors_after_restart :
    ∃ a b : Assembly Display,
      fresh 0 { queueLimit := 1 } ⟨.fresh [] [4, 16] true, {}⟩ = .ok a ∧
      fresh 1 { queueLimit := 1 } ⟨.fresh [] [32] true, {}⟩ = .ok b ∧
      ∃ steps, (a.run steps).controller.isActive = true ∧
        (a.run steps).controller.displayCallback = some "screen" ∧
        (a.run steps).controller.queue.waiting ≠ [] ∧
        (∃ x, (a.run steps).controller.resolve ⟨.hdmi, 0, 1⟩ = .ok x ∧ x.requested ≠ none ∧
          x.accepted ≠ none ∧ x.hdcp = .authenticated) ∧
        ∃ generation dropped,
          (a.run (steps ++ [.request .stop] ++ [.request .start])).controller =
            { (b.run [.request .start]).controller with
              queueId := 0
              generation
              queue := { (b.run [.request .start]).controller.queue with dropped } } ∧
          generation = 2 ∧ dropped = 1 := by
  obtain ⟨a, b, ha, hb, hall⟩ := @restart_eq_fresh_start Display _ { queueLimit := 1 } Display _ 0 1
    ⟨.fresh [] [4, 16] true, {}⟩ ⟨.fresh [] [32] true, {}⟩ rfl
  obtain rfl := Except.ok.inj ha
  obtain rfl := Except.ok.inj hb
  refine ⟨_, _, ha, hb, [.request .start, .request (.register .display "screen"),
    .push ⟨0, .hdcp .authenticated⟩, .request .dispatch,
    .request (.on ⟨.hdmi, 0, 1⟩ (.setResolution "720p")),
    .request (.on ⟨.hdmi, 0, 1⟩ .accepted), .push ⟨0, .connected⟩, .push ⟨0, .disconnected⟩],
    rfl, rfl, List.cons_ne_nil _ _,
    ⟨_, rfl, Option.some_ne_none _, Option.some_ne_none _, rfl⟩, ?_⟩
  obtain ⟨-, hagain⟩ := hall [.request .start, .request (.register .display "screen"),
    .push ⟨0, .hdcp .authenticated⟩, .request .dispatch,
    .request (.on ⟨.hdmi, 0, 1⟩ (.setResolution "720p")),
    .request (.on ⟨.hdmi, 0, 1⟩ .accepted), .push ⟨0, .connected⟩, .push ⟨0, .disconnected⟩] rfl
  obtain ⟨generation, dropped, heq⟩ := hagain [] true ⟨rfl, fun _ => ⟨_, rfl, rfl⟩⟩
    ⟨rfl, fun _ => ⟨_, rfl, rfl⟩⟩
  refine ⟨generation, dropped, heq, ?_, ?_⟩
  · exact (congrArg Controller.generation heq).symm
  · exact (congrArg (fun c => c.queue.dropped) heq).symm

end Assembly

end VideoOutput
