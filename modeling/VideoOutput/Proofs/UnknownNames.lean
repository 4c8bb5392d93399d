import VideoOutput.Cli.Run
import VideoOutput.Proofs.Setup
import VideoOutput.Proofs.Watched

/-!
# Unknown names on the command line

Which names are unknown is decided twice. The commands look into the table of resolutions; the
catalog looks into its map of mode codes, and takes the code of the fallback for a name that is not
there. On the platform the two know the same names (`mem_names_iff`). A command that requests a name
goes a longer way than the catalog: it resolves the code of the fallback to a resolution and hands
the name of that one on, which gets the code again (`exists_resolveName`).

`agreesOn_of_check` is what follows: the mark in an answer is about the map, and a request made for
a name is the one that the name itself would have made.

The comparison is of whole outcomes, over every handle, every state of the controller and every
firmware, and leaves out the log only (`Outcome.SameButLog`): the request through the resolved name
says less in it, since this name is known. The settings have to be valid, because the fallback is
judged there, and a fallback without a mode would leave a name with nowhere to go. Which of the
valid settings they are does not matter; a second fallback stands behind the theorem as an example.
-/

namespace VideoOutput

/-! ## One set of names -/

namespace Mode.Catalog

variable {catalog : Catalog} {fallback name : String}

/-- The platform's table and the platform's map know the same names. -/
theorem mem_names_iff (h : withFallback fallback = .ok catalog) :
    name ∈ catalog.resolutions.map Resolution.name ↔ name ∈ catalog.modes.map ModeRow.name := by
  obtain ⟨hresolutions, hmodes, hconsistent, -⟩ := withFallback_eq_ok_iff.mp h
  constructor
  · intro hname
    rw [hresolutions] at hname
    obtain ⟨r, hr, rfl⟩ := List.mem_map.mp hname
    obtain ⟨code, hrow⟩ := exists_row_of_mem_advertised hr
    rw [hmodes]
    exact List.mem_map_of_mem hrow
  · intro hname
    obtain ⟨row, hrow, rfl⟩ := List.mem_map.mp hname
    exact hconsistent.known row hrow

/-- So a name is found in the one if it is found in the other. -/
theorem find?_eq_none_iff (h : withFallback fallback = .ok catalog) :
    catalog.find? name = none ↔ rowOf? catalog.modes name = none := by
  rw [rowOf?_eq_none_iff, ← mem_names_iff h]
  exact find?_eq_none_iff_key

/-- The table of resolutions and the map know the same names. -/
theorem isSome_find? (h : withFallback fallback = .ok catalog) :
    (catalog.find? name).isSome = (rowOf? catalog.modes name).isSome := by
  rw [Bool.eq_iff_iff, Option.isSome_iff_ne_none, Option.isSome_iff_ne_none, ne_eq, ne_eq,
    find?_eq_none_iff h]

end Mode.Catalog

/-! ## Requests that differ in the name only -/

namespace Controller

variable {σ α : Type}

/-- The outcomes differ at most in what is logged. -/
structure Outcome.SameButLog (o o' : Outcome σ α) : Prop where
  result : o.result = o'.result
  controller : o.controller = o'.controller
  firmware : o.firmware = o'.firmware

variable [Firmware σ] {c : Controller} {name name' : String}

/-- Of a name only the mode code counts. -/
theorem setResolution_sameButLog (hcode : c.catalog.codeOf name' = c.catalog.codeOf name) (fw : σ)
    (h : Handle) : (c.setResolution fw h name').SameButLog (c.setResolution fw h name) := by
  unfold setResolution
  dsimp only
  rw [hcode]
  split
  next => exact ⟨rfl, rfl, rfl⟩
  next =>
    split
    next => exact ⟨rfl, rfl, rfl⟩
    next => exact ⟨rfl, rfl, rfl⟩

/-- The one call that is made for a name is the one for its mode. -/
theorem notes_setResolution {h : Handle} {x : Connector}
    (hr : c.resolveHdmi h .changeResolution = .ok x) (w : Firmware.Watched σ) :
    (c.setResolution w h name).firmware.notes.map Firmware.Note.call =
      w.notes.map Firmware.Note.call ++ [.setMode (c.catalog.codeOf name)] := by
  unfold setResolution
  rw [hr]
  dsimp only
  split
  next => simp [Firmware.Watched.setMode_eq, Firmware.Watched.noting]
  next => simp [Firmware.Watched.setMode_eq, Firmware.Watched.noting]

end Controller

/-! ## The commands -/

namespace Cli

open Mode (Catalog)

variable {catalog : Catalog} {settings : Settings} {fallback name : String}

/-- A command finds a resolution for every name: the one that has the mode of the name. -/
theorem exists_resolveName (h : Catalog.withFallback fallback = .ok catalog) (name : String) :
    ∃ r, resolveName catalog name = .ok r ∧
      r.name = Catalog.nameFor Catalog.platformModes fallback name ∧
      catalog.codeOf r.name = catalog.codeOf name ∧
      catalog.resolutionOf? (catalog.codeOf name) = some r := by
  obtain ⟨r, hr, hname, hrow, hresolved⟩ := Catalog.exists_resolutionOf?_of_withFallback h name
  obtain ⟨hresolutions, hmodes, hconsistent, -⟩ := Catalog.withFallback_eq_ok_iff.mp h
  rw [← hresolutions] at hr
  rw [← hmodes] at hrow
  refine ⟨r, ?_, hname, Catalog.codeOf_of_mem hconsistent hrow, hresolved⟩
  unfold resolveName
  cases hfind : catalog.find? name with
  | some r' =>
    -- the name is in the table, so there is no other resolution of that name
    obtain ⟨hr', rfl⟩ := (Catalog.find?_eq_some_iff hconsistent).mp hfind
    have hknown := (Catalog.mem_names_iff h).mp (List.mem_map_of_mem hr')
    rw [hmodes] at hknown
    rw [Catalog.nameFor, if_pos hknown] at hname
    rw [Catalog.eq_of_name_eq hconsistent hr hr' hname]
  | none =>
    have hunknown := Catalog.rowOf?_eq_none_iff.mp ((Catalog.find?_eq_none_iff h).mp hfind)
    rw [Catalog.codeOf_of_unknown hunknown] at hresolved
    rw [hresolved]

/-- The answer to a query for a name, marked if the map has no row for it. -/
def answerLine (catalog : Catalog) (name : String) : String :=
  name ++ " -> mode " ++ toString (catalog.codeOf name).toNat ++
    if (Catalog.rowOf? catalog.modes name).isSome then "" else " (fallback)"

/-- The line about what a display with the given modes accepts, if any are given. -/
def acceptedLines (catalog : Catalog) (supported : List Mode.ModeCode) : List String :=
  if supported = [] then [] else ["supported: " ++ nameList (catalog.accepted supported)]

/-- A query for a name is always answered, with a mark if the name is unknown. -/
theorem answerQuery_name (h : Catalog.withFallback fallback = .ok catalog) (name : String) :
    answerQuery catalog (.name name) = .ok (answerLine catalog name) := by
  unfold answerQuery answerLine
  rw [← Catalog.isSome_find? h]

/-- What a query for a name prints. -/
theorem runNegotiate_name (h : Catalog.withFallback fallback = .ok catalog) (name : String)
    (supported : List Mode.ModeCode) :
    (runNegotiate catalog (.name name) supported).failure = none ∧
      (runNegotiate catalog (.name name) supported).output =
        lines (answerLine catalog name :: acceptedLines catalog supported) := by
  unfold runNegotiate
  rw [answerQuery_name h]
  cases supported with
  | nil => exact ⟨rfl, rfl⟩
  | cons code codes => exact ⟨rfl, rfl⟩

/-- The session goes on with this outcome, or ends with its error, whatever is logged. -/
def GoesOnWith (session : Session) (outcome : Controller.Outcome Firmware.Simulator Unit)
    (next : Session → Report) (report : Report) : Prop :=
  ∃ log, report =
    let session' : Session := ⟨outcome.controller, outcome.firmware, session.output, log⟩
    match outcome.result with
    | .ok () => next session'
    | .error e => session'.fail e.messages

/-- A session that requests a name goes on as if the name itself had been handed on. -/
theorem requestName_goesOnWith (h : Catalog.withFallback fallback = .ok catalog)
    (session : Session) (hcatalog : session.controller.catalog = catalog) (handle : Handle)
    (name : String) (next : Session → Report) :
    GoesOnWith session (session.controller.setResolution session.display handle name) next
      (session.requestName handle (some name) next) := by
  obtain ⟨r, hresolve, -, hcode, -⟩ := exists_resolveName h name
  have hsame := Controller.setResolution_sameButLog (c := session.controller) (hcatalog ▸ hcode)
    session.display handle
  unfold Session.requestName GoesOnWith
  dsimp only
  rw [hcatalog, hresolve, ← hsame.result, ← hsame.controller, ← hsame.firmware]
  refine ⟨session.log ++ resolveNameLog catalog name ++
    (session.controller.setResolution session.display handle r.name).log, ?_⟩
  unfold Session.andThen
  dsimp only
  cases (session.controller.setResolution session.display handle r.name).result with
  | ok a => rfl
  | error e => rfl

/-- The commands and the catalog agree on a name. -/
structure AgreesOn (settings : Settings) (catalog : Catalog) (name : String) : Prop where
  /-- The answer to a query for the name is marked if the map has no row for it. -/
  marked : ∀ (host : Host) (supported : List Mode.ModeCode),
    ((Command.negotiate (.name name) supported).run host settings).failure = none ∧
      ((Command.negotiate (.name name) supported).run host settings).output =
        lines (answerLine catalog name :: acceptedLines catalog supported)
  /-- A resolution is found for the name, and it has the mode of the name. -/
  resolved : ∃ r, resolveName catalog name = .ok r ∧ catalog.codeOf r.name = catalog.codeOf name
  /-- Over every firmware a request for that resolution does what one for the name does. -/
  requested : ∀ {r : Mode.Resolution}, resolveName catalog name = .ok r →
    ∀ {σ : Type} [Firmware σ] (c : Controller) (fw : σ) (h : Handle), c.catalog = catalog →
      (c.setResolution fw h r.name).SameButLog (c.setResolution fw h name)
  /-- It makes one call, for the mode of the name. -/
  called : ∀ {r : Mode.Resolution}, resolveName catalog name = .ok r →
    ∀ {σ : Type} [Firmware σ] (c : Controller) (w : Firmware.Watched σ) (h : Handle)
      {x : Connector}, c.catalog = catalog → c.resolveHdmi h .changeResolution = .ok x →
      (c.setResolution w h r.name).firmware.notes.map Firmware.Note.call =
        w.notes.map Firmware.Note.call ++ [.setMode (catalog.codeOf name)]
  /-- And a session that is to request the name goes on as if it had handed on the name. -/
  commanded : ∀ (session : Session) (h : Handle) (next : Session → Report),
    session.controller.catalog = catalog →
      GoesOnWith session (session.controller.setResolution session.display h name) next
        (session.requestName h (some name) next)

/-- **The command line and the catalog agree on unknown names.** Under settings that pass the check
they agree on every name, with the catalog that the controller of these settings has. -/
theorem agreesOn_of_check (hvalid : settings.check = .ok settings) :
    ∃ catalog, settings.catalog = .ok catalog ∧
      (∀ id, ∃ c, Controller.ofSettings id settings = .ok c ∧ c.catalog = catalog) ∧
      ∀ name, AgreesOn settings catalog name := by
  obtain ⟨catalog, hcat, -⟩ := Controller.ofSettings_of_check hvalid 0
  have hcatalog : settings.catalog = .ok catalog := by
    unfold Settings.catalog
    rw [hcat]
  refine ⟨catalog, hcatalog, fun id => ?_, fun name => ?_⟩
  · obtain ⟨catalog', hcat', hmade⟩ := Controller.ofSettings_of_check hvalid id
    obtain rfl := Except.ok.inj (hcat.symm.trans hcat')
    exact ⟨_, hmade, rfl⟩
  · obtain ⟨r, hresolve, -, hcode, -⟩ := exists_resolveName hcat name
    have honly : ∀ {r'}, resolveName catalog name = .ok r' → r' = r := fun h =>
      Except.ok.inj (h.symm.trans hresolve)
    refine ⟨fun host supported => ?_, ⟨r, hresolve, hcode⟩, ?_, ?_, ?_⟩
    · unfold Command.run
      rw [hcatalog]
      exact runNegotiate_name hcat name supported
    · intro r' hr' σ _ c fw h hc
      obtain rfl := honly hr'
      exact Controller.setResolution_sameButLog (hc ▸ hcode) fw h
    · intro r' hr' σ _ c w h x hc hx
      obtain rfl := honly hr'
      rw [Controller.notes_setResolution hx, hc, hcode]
    · intro session h next hc
      exact requestName_goesOnWith hcat session hc h name next

theorem agreesOn_with_another_fallback :
    Settings.check { fallback := "1080p60" } = .ok { fallback := "1080p60" } ∧
      ∃ catalog, Settings.catalog { fallback := "1080p60" } = .ok catalog ∧
        (AgreesOn { fallback := "1080p60" } catalog "8k" ∧
          answerLine catalog "8k" = "8k -> mode 16 (fallback)") ∧
        AgreesOn { fallback := "1080p60" } catalog "720p" ∧
          answerLine catalog "720p" = "720p -> mode 4" := by
  have hcheck : Settings.check { fallback := "1080p60" } = .ok { fallback := "1080p60" } := rfl
  obtain ⟨catalog, hcatalog, -, hagrees⟩ := agreesOn_of_check hcheck
  have hmade : Settings.catalog { fallback := "1080p60" } =
      .ok ⟨Mode.Resolution.advertised, Catalog.platformModes, 16⟩ := rfl
  obtain rfl := Except.ok.inj (hmade.symm.trans hcatalog)
  exact ⟨hcheck, _, hcatalog, ⟨hagrees "8k", rfl⟩, hagrees "720p", rfl⟩

end Cli

end VideoOutput
