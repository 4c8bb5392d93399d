import Mathlib.Algebra.Group.Nat.Defs
import VideoOutput.Proofs.Assembly

/-!
# The lifetime of a handle

A handle is judged before a request is looked at. Whoever holds one that is not accepted gets the
same refusal for every request, and nothing is called (`performOn_of_resolve_error`); once it is
accepted no refusal is about the handle any more (`passesHandle_of_resolve`).

`handle_lifetime` follows a handle through a run over any firmware: it is accepted in the cycle it
was asked for in, refused while the controller is inactive, and stale in later cycles, except in
those whose number differs by a multiple of 2^32. Starts that fail begin no cycle and so count for
nothing.

A handle carries a kind, an index and a generation, and no more. So two handles that were asked for
in the same cycle for the same connector are equal, and a handle can be made up: whether it is
accepted depends on its three parts and not on where it is from. The exception for cycles that are
2^32 apart is a consequence of the width of the counter. `handle_lifetime` states it in the form of
a divisibility, so that it cannot be overlooked.
-/

namespace VideoOutput

/-- How many connectors of a kind settings ask for. -/
def Settings.count (settings : Settings) : Connector.Kind → UInt8
  | .hdmi => settings.hdmiCount
  | .composite => settings.compositeCount

/-- The indices of a kind are the numbers below its count, as a count has eight bits too. -/
theorem exists_ofNat_eq_iff {count index : UInt8} :
    (∃ i < count.toNat, UInt8.ofNat i = index) ↔ index < count := by
  rw [UInt8.lt_iff_toNat_lt]
  constructor
  · rintro ⟨i, hi, rfl⟩
    have hcount := count.toNat_lt
    rw [UInt8.toNat_ofNat', Nat.mod_eq_of_lt (by omega)]
    exact hi
  · intro hi
    exact ⟨index.toNat, hi, UInt8.ofNat_toNat⟩

/-- A place is one of the settings' if its index is below the count of its kind. -/
theorem Settings.mem_places {settings : Settings} {kind : Connector.Kind} {index : UInt8} :
    (kind, index) ∈ settings.places ↔ index < settings.count kind := by
  unfold Settings.places Settings.count
  cases kind with
  | hdmi => simp [← exists_ofNat_eq_iff]
  | composite => simp [← exists_ofNat_eq_iff]

namespace Controller

variable {σ : Type} [Firmware σ] {c : Controller} {h : Handle}

/-! ## The judgement of a handle -/

theorem resolveHdmi_of_error {e : Error} (hr : c.resolve h = .error e) (ability : Ability) :
    c.resolveHdmi h ability = .error e := by
  unfold resolveHdmi
  rw [hr]

/-- An accepted handle is accepted for an ability or told that the ability is lacking. -/
theorem resolveHdmi_cases {x : Connector} (hr : c.resolve h = .ok x) (ability : Ability) :
    c.resolveHdmi h ability = .ok x ∨ c.resolveHdmi h ability = .error (.unsupported ability) := by
  unfold resolveHdmi
  rw [hr]
  dsimp only
  cases x.kind with
  | hdmi => exact .inl rfl
  | composite => exact .inr rfl

/-- The error is a judgement of the handle, whatever was asked. -/
def Error.IsAboutHandle : Error → Prop
  | .notActive | .staleHandle | .noConnector => True
  | _ => False

/-- The ability that the connector needs for a request, if it needs one. -/
def HandleRequest.ability? : HandleRequest → Option Ability
  | .isDisplayConnected => some .detectDisplay
  | .resolution => some .tellResolution
  | .setResolution _ => some .changeResolution
  | .readIdentity _ | .blob => some .readIdentity
  | .accepted | .geometries => some .listResolutions
  | .aspect => some .tellAspect
  | .hdcp => some .tellProtection
  | .state | .setEnabled _ | .isEnabled | .requested | .controlHdcp _ => none

/-- A request that needs an ability is refused with what is wrong about it, before anything is
called. -/
theorem performOn_of_resolveHdmi_error {ability : Ability} {e : Error} {r : HandleRequest}
    (ha : r.ability? = some ability) (hr : c.resolveHdmi h ability = .error e) (fw : σ) :
    c.performOn fw h r = c.reading fw (.error e) := by
  cases r with
  | state | setEnabled | isEnabled | requested | controlHdcp =>
    exact absurd ha (by simp [HandleRequest.ability?])
  | isDisplayConnected | hdcp =>
    obtain rfl := Option.some.inj ha
    simp only [performOn, isDisplayConnected, hdcp, hr]
    rfl
  | _ =>
    obtain rfl := Option.some.inj ha
    simp only [performOn, resolution, setResolution, readIdentity, blob, accepted, geometries,
      aspect, hr]
    rfl

/-- A handle that is not accepted is refused for the same reason by every request, before anything
is called. -/
theorem performOn_of_resolve_error {e : Error} (hr : c.resolve h = .error e) (fw : σ)
    (r : HandleRequest) : c.performOn fw h r = c.reading fw (.error e) := by
  cases ha : r.ability? with
  | some ability => exact performOn_of_resolveHdmi_error ha (resolveHdmi_of_error hr ability) fw
  | none =>
    cases r with
    | state | isEnabled | requested | setEnabled | controlHdcp =>
      simp only [performOn, state, isEnabled, requested, setEnabled, controlHdcp, hr]
      rfl
    | _ => exact absurd ha (by simp [HandleRequest.ability?])

/-- A result that, if it is an error, is not one about the handle. -/
def PassesHandle {α : Type} (result : Except Error α) : Prop :=
  ∀ e, result = .error e → ¬ e.IsAboutHandle

theorem passesHandle_ok {α : Type} (a : α) : PassesHandle (.ok a) :=
  fun _ he => absurd he (by simp)

/-- An error that is not about the handle is no refusal of it. -/
theorem passesHandle_error {α : Type} {e : Error} (h : ¬ e.IsAboutHandle) :
    PassesHandle (.error e : Except Error α) :=
  fun _ he => Except.error.inj he ▸ h

/-- What is made of a result does not change whether the handle passed. -/
theorem PassesHandle.map {α β : Type} {result : Except Error α} (h : PassesHandle result)
    (f : α → β) : PassesHandle (result.map f) := by
  cases result with
  | ok a => exact passesHandle_ok (f a)
  | error e => exact passesHandle_error (h e rfl)

/-- A failure of the firmware is not about the handle. -/
theorem passesHandle_firmware {α : Type} (answer : Except Firmware.Failure α) :
    PassesHandle (answer.mapError Error.firmware) := by
  cases answer with
  | ok a => exact passesHandle_ok a
  | error failure => exact passesHandle_error id

/-- A request whose ability is there goes on to the firmware, and what comes from there is not about
the handle. -/
theorem passesHandle_of_resolveHdmi {x : Connector} {ability : Ability} {r : HandleRequest}
    (ha : r.ability? = some ability) (hr : c.resolveHdmi h ability = .ok x) (fw : σ) :
    PassesHandle (c.performOn fw h r).result := by
  -- behind the handle there are only answers and errors of the firmware or of the blob
  cases r with
  | state | setEnabled | isEnabled | requested | controlHdcp =>
    exact absurd ha (by simp [HandleRequest.ability?])
  | isDisplayConnected | hdcp =>
    obtain rfl := Option.some.inj ha
    simp only [performOn, isDisplayConnected, hdcp, hr]
    exact passesHandle_ok _
  | blob | geometries | aspect =>
    obtain rfl := Option.some.inj ha
    simp only [performOn, blob, geometries, aspect, hr]
    exact (passesHandle_firmware _).map _
  | resolution =>
    obtain rfl := Option.some.inj ha
    refine PassesHandle.map ?_ _
    simp only [resolution, hr]
    split
    next => exact passesHandle_error id
    next =>
      split
      next => exact passesHandle_ok _
      next => exact passesHandle_error id
  | setResolution name =>
    obtain rfl := Option.some.inj ha
    refine PassesHandle.map ?_ _
    simp only [setResolution, hr]
    split
    next => exact passesHandle_error id
    next => exact passesHandle_ok ()
  | accepted =>
    obtain rfl := Option.some.inj ha
    refine PassesHandle.map ?_ _
    simp only [accepted, hr]
    split
    next => exact passesHandle_ok _
    next =>
      split
      next => exact passesHandle_error id
      next => exact passesHandle_ok _
  | readIdentity currentYear =>
    obtain rfl := Option.some.inj ha
    refine PassesHandle.map ?_ _
    simp only [readIdentity, hr]
    split
    next => exact passesHandle_error id
    next =>
      split
      next => exact passesHandle_error id
      next =>
        split
        next => exact passesHandle_error id
        next => exact passesHandle_ok _

/-- Once the handle is accepted, a request fails for another reason if it fails at all. -/
theorem passesHandle_of_resolve {x : Connector} (hr : c.resolve h = .ok x) (fw : σ)
    (r : HandleRequest) : PassesHandle (c.performOn fw h r).result := by
  cases ha : r.ability? with
  | none =>
    cases r with
    | state | isEnabled | requested =>
      simp only [performOn, state, isEnabled, requested, hr]
      exact passesHandle_ok _
    | controlHdcp =>
      simp only [performOn, controlHdcp, hr]
      exact passesHandle_error id
    | setEnabled enabled =>
      refine PassesHandle.map ?_ _
      simp only [setEnabled, hr]
      split
      next => exact passesHandle_error id
      next => exact passesHandle_ok ()
    | _ => exact absurd ha (by simp [HandleRequest.ability?])
  | some ability =>
    rcases resolveHdmi_cases hr ability with hx | hx
    · exact passesHandle_of_resolveHdmi ha hx fw
    · rw [performOn_of_resolveHdmi_error ha hx]
      exact passesHandle_error id

/-- Every request through the handle is refused with this error and leaves everything alone. -/
def Refuses (σ : Type) [Firmware σ] (c : Controller) (h : Handle) (e : Error) : Prop :=
  ∀ (fw : σ) (r : HandleRequest), c.performOn fw h r = c.reading fw (.error e)

/-- Questions that only need the handle are answered, and no request is refused for the handle. -/
structure Accepts (σ : Type) [Firmware σ] (c : Controller) (h : Handle) : Prop where
  state : ∃ state, c.state h = .ok state
  isEnabled : ∃ flag, c.isEnabled h = .ok flag
  requested : ∃ r, c.requested h = .ok r
  passes : ∀ (fw : σ) (r : HandleRequest), PassesHandle (c.performOn fw h r).result

/-- A handle that is resolved is accepted for all requests. -/
theorem accepts_of_resolve {x : Connector} (hr : c.resolve h = .ok x) : c.Accepts σ h := by
  refine ⟨⟨x.state, ?_⟩, ⟨x.enabled, ?_⟩, ⟨x.requested, ?_⟩, passesHandle_of_resolve hr⟩
  · unfold state
    rw [hr]
    rfl
  · unfold isEnabled
    rw [hr]
    rfl
  · unfold requested
    rw [hr]
    rfl

theorem resolve_of_inactive (hact : c.isActive = false) : c.resolve h = .error .notActive := by
  unfold resolve
  rw [hact]
  rfl

theorem resolve_of_stale (hact : c.isActive = true) (hgen : h.generation ≠ c.generation) :
    c.resolve h = .error .staleHandle := by
  unfold resolve
  rw [hact]
  simp [hgen]

/-- A handle of the current generation is accepted exactly if its connector exists. -/
theorem exists_resolve_iff (hact : c.isActive = true) (hgen : h.generation = c.generation) :
    (∃ x, c.resolve h = .ok x) ↔ (h.kind, h.index) ∈ c.connectors.map place := by
  simp only [resolve_eq_ok_iff, hact, hgen, true_and]
  rw [← Option.isSome_iff_exists, List.find?_isSome, List.mem_map]
  simp only [isNamedBy_iff, place, Prod.mk.injEq]

/-- A handle is what was asked for, in the current generation. -/
theorem handle_eq_ok_iff {kind : Connector.Kind} {index : UInt8} :
    c.handle kind index = .ok h ↔
      h = ⟨kind, index, c.generation⟩ ∧ c.isActive = true ∧
        (kind, index) ∈ c.connectors.map place := by
  have hmade : c.handle kind index =
      (c.resolve ⟨kind, index, c.generation⟩).map fun _ => ⟨kind, index, c.generation⟩ := rfl
  rw [hmade]
  cases hact : c.isActive with
  | false =>
    rw [resolve_of_inactive hact]
    simp [Except.map]
  | true =>
    have hiff := exists_resolve_iff (h := ⟨kind, index, c.generation⟩) hact rfl
    cases hr : c.resolve ⟨kind, index, c.generation⟩ with
    | ok x =>
      have hmem := hiff.mp ⟨x, hr⟩
      simp only [Except.map, Except.ok.injEq, hmem, and_true]
      exact eq_comm
    | error e =>
      have hmem : (kind, index) ∉ c.connectors.map place := fun hmem => by
        obtain ⟨x, hx⟩ := hiff.mpr hmem
        exact absurd (hr.symm.trans hx) (by simp)
      simp [Except.map, hmem]

end Controller

/-! ## Cycles -/

namespace Assembly

variable {σ : Type} [Firmware σ] {a : Assembly σ}

/-- A generation recurs exactly after a multiple of 2^32 further ones. -/
theorem add_ofNat_eq_iff (g : UInt32) (n : Nat) : g + UInt32.ofNat n = g ↔ 2 ^ 32 ∣ n := by
  rw [← UInt32.toNat_inj, UInt32.toNat_add, UInt32.toNat_ofNat']
  have hg := g.toNat_lt
  omega

/-- The connector of a handle exists for good. -/
theorem mem_places_of_handle {kind : Connector.Kind} {index : UInt8} {h : Handle}
    (hh : a.controller.handle kind index = .ok h) (later : List (Step σ)) :
    (h.kind, h.index) ∈ (a.run later).controller.connectors.map Controller.place := by
  obtain ⟨rfl, -, hmem⟩ := Controller.handle_eq_ok_iff.mp hh
  rw [(sameSetup_run a later).places]
  exact hmem

/-- The generation of a handle recurs when the starts since are a multiple of 2^32. -/
theorem generation_eq_iff {kind : Connector.Kind} {index : UInt8} {h : Handle}
    (hh : a.controller.handle kind index = .ok h) (later : List (Step σ)) :
    h.generation = (a.run later).controller.generation ↔ 2 ^ 32 ∣ a.starts later := by
  obtain ⟨rfl, -, -⟩ := Controller.handle_eq_ok_iff.mp hh
  rw [generation_run, eq_comm]
  exact add_ofNat_eq_iff _ _

/-- What becomes of a handle in the steps after it was given. -/
theorem handle_later {kind : Connector.Kind} {index : UInt8} {h : Handle}
    (hh : a.controller.handle kind index = .ok h) (later : List (Step σ)) :
    ((a.run later).controller.isActive = false →
        (a.run later).controller.Refuses σ h .notActive) ∧
      ((a.run later).controller.isActive = true → 2 ^ 32 ∣ a.starts later →
        (a.run later).controller.Accepts σ h) ∧
      ((a.run later).controller.isActive = true → ¬ 2 ^ 32 ∣ a.starts later →
        (a.run later).controller.Refuses σ h .staleHandle) := by
  refine ⟨fun hidle fw r => ?_, fun hact hage => ?_, fun hact hage fw r => ?_⟩
  · exact Controller.performOn_of_resolve_error (Controller.resolve_of_inactive hidle) fw r
  · have hgen := (generation_eq_iff hh later).mpr hage
    obtain ⟨x, hx⟩ :=
      (Controller.exists_resolve_iff hact hgen).mpr (mem_places_of_handle hh later)
    exact Controller.accepts_of_resolve hx
  · have hgen := mt (generation_eq_iff hh later).mp hage
    exact Controller.performOn_of_resolve_error (Controller.resolve_of_stale hact hgen) fw r

/-- Over a display in order a start succeeds and leaves the display in order. -/
theorem begins_of_isInOrder {a : Assembly Display} (hidle : a.controller.isActive = false)
    (h : a.firmware.IsInOrder) :
    a.begins (.request .start) = true ∧
      (a.step (.request .start)).controller.isActive = true ∧
      Display.IsInOrder (a.step (.request .start)).firmware := by
  have hs := h.start
  have hasked := Display.askedAtStart_state (c := a.controller) hs
  -- without HDMI connectors the link is not asked for
  have hl : ∃ isConnected, (a.controller.askedAtStart a.firmware).answer = .ok isConnected := by
    unfold Controller.askedAtStart Controller.askConnected
    rw [Display.start_of_ok hs]
    split
    next =>
      have horder : Display.IsInOrder (a.firmware.changed fun sim =>
          { sim with isActive := true, attached := some a.controller.queueId }) :=
        ⟨h.faults, h.responding⟩
      have hlink := horder.linkState rfl
      exact ⟨_, congrArg (Except.map Firmware.LinkState.isConnected) hlink⟩
    next => exact ⟨false, rfl⟩
  obtain ⟨isConnected, hl⟩ := hl
  show (a.controller.start a.firmware |>.answering fun _ => Controller.Answer.done).result.isOk = true ∧
    (a.controller.start a.firmware).controller.isActive = true ∧
      Display.IsInOrder (a.controller.start a.firmware).firmware
  unfold Controller.start
  simp only [hidle, Bool.false_eq_true, if_false, hs,
    show a.controller.emptyQueue.queueId = a.controller.queueId from rfl,
    Controller.askedAtStart_eq, hl, hasked]
  exact ⟨rfl, rfl, h.faults, h.responding⟩

/-- A stop and a start, `n` times. -/
def restarts {σ : Type} : Nat → List (Step σ)
  | 0 => []
  | n + 1 => .request .stop :: .request .start :: restarts n

/-- A display in order can be restarted any number of times. -/
theorem starts_restarts (n : Nat) {a : Assembly Display} (hact : a.controller.isActive = true)
    (h : a.firmware.IsInOrder) :
    a.starts (restarts n) = n ∧ (a.run (restarts n)).controller.isActive = true := by
  induction n generalizing a with
  | zero => exact ⟨rfl, hact⟩
  | succ n ih =>
    have hstop := step_stop hact
    have hstopped : Display.IsInOrder (a.step (.request .stop)).firmware := by
      rw [hstop]
      exact ⟨h.faults, h.responding⟩
    have hidle : (a.step (.request .stop)).controller.isActive = false := by
      rw [hstop]
      rfl
    obtain ⟨hbegins, hactive, horder⟩ := begins_of_isInOrder hidle hstopped
    obtain ⟨hcount, hend⟩ := ih hactive horder
    refine ⟨?_, hend⟩
    rw [restarts, starts, starts, hbegins, hcount]
    show 0 + (1 + n) = n + 1
    omega

/-- **The lifetime of a handle.** For valid settings there is a controller over any firmware, and in
every run of it a handle is given exactly for a connector that the settings ask for, while the
controller is active. From then on, through any further steps, the handle is refused while the
controller is inactive; while it is active, the handle is accepted if the number of starts that
succeeded has since grown by a multiple of 2^32, as it has in its own cycle, and stale if not. -/
theorem handle_lifetime {settings : Settings} (id : Connector.QueueId) (fw : σ)
    (hvalid : settings.check = .ok settings) :
    ∃ a, fresh id settings fw = .ok a ∧
      (∀ steps kind index, (∃ h, (a.run steps).controller.handle kind index = .ok h) ↔
        (a.run steps).controller.isActive = true ∧ index < settings.count kind) ∧
      ∀ steps kind index h, (a.run steps).controller.handle kind index = .ok h →
        ∀ later,
          a.starts steps ≤ a.starts (steps ++ later) ∧
          ((a.run (steps ++ later)).controller.isActive = false →
            (a.run (steps ++ later)).controller.Refuses σ h .notActive) ∧
          ((a.run (steps ++ later)).controller.isActive = true →
            2 ^ 32 ∣ a.starts (steps ++ later) - a.starts steps →
            (a.run (steps ++ later)).controller.Accepts σ h) ∧
          ((a.run (steps ++ later)).controller.isActive = true →
            ¬ 2 ^ 32 ∣ a.starts (steps ++ later) - a.starts steps →
            (a.run (steps ++ later)).controller.Refuses σ h .staleHandle) := by
  obtain ⟨catalog, hfresh⟩ := fresh_of_check hvalid id fw
  refine ⟨_, hfresh, fun steps kind index => ?_, fun steps kind index h hh later => ?_⟩
  · simp only [Controller.handle_eq_ok_iff, places_run, Settings.mem_places, exists_eq_left]
  · rw [starts_append, run_append, Nat.add_sub_cancel_left]
    exact ⟨Nat.le_add_right _ _, handle_later hh later⟩

/-- A handle of the first cycle is stale in the second, although a start failed in between, and is
accepted again 2^32 cycles after its own. -/
theorem handle_stale_and_accepted_again :
    ∃ a, fresh 0 {} (⟨.fresh [] [4, 16] true, {}⟩ : Display) = .ok a ∧
      ∃ h, (a.run [.request .start]).controller.handle .hdmi 0 = .ok h ∧
        (a.run [.request .start, .request .stop, .firmware ⟨.fresh [] [] true, { start := some "" }⟩,
          .request .start, .firmware ⟨.fresh [] [] true, {}⟩,
          .request .start]).controller.Refuses Display h .staleHandle ∧
        (a.run ([.request .start] ++ restarts (2 ^ 32))).controller.Accepts Display h := by
  obtain ⟨a, hfresh, -, hall⟩ := handle_lifetime 0
    (⟨.fresh [] [4, 16] true, {}⟩ : Display) (rfl : Settings.check {} = .ok {})
  have hactive : (a.run [.request .start]).controller.isActive = true := by
    obtain rfl := Except.ok.inj hfresh
    rfl
  have horder : Display.IsInOrder (a.run [.request .start]).firmware := by
    obtain rfl := Except.ok.inj hfresh
    exact ⟨rfl, rfl⟩
  have hgiven : (a.run [.request .start]).controller.handle .hdmi 0 = .ok ⟨.hdmi, 0, 1⟩ := by
    obtain rfl := Except.ok.inj hfresh
    rfl
  -- the number is kept abstract, since nothing here may count that far
  obtain ⟨n, hn⟩ : ∃ n, n = 2 ^ 32 := ⟨_, rfl⟩
  obtain ⟨hcount, hend⟩ := starts_restarts n hactive horder
  have hagain := (hall _ _ _ _ hgiven (restarts n)).2.2.1
  rw [run_append, starts_append, Nat.add_sub_cancel_left, hcount, ← hn] at hagain
  refine ⟨a, hfresh, _, hgiven, ?_, ?_⟩
  · refine (hall _ _ _ _ hgiven [.request .stop, .firmware ⟨.fresh [] [] true, { start := some "" }⟩,
      .request .start, .firmware ⟨.fresh [] [] true, {}⟩, .request .start]).2.2.2 ?_ ?_
    · obtain rfl := Except.ok.inj hfresh
      rfl
    · obtain rfl := Except.ok.inj hfresh
      decide
  · rw [run_append, ← hn]
    exact hagain hend (Nat.dvd_refl n)

end Assembly

end VideoOutput
