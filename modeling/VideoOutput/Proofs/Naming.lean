import Mathlib.Data.Set.Function
import VideoOutput.Proofs.Catalog

/-!
# Names, codes and resolutions

A catalog that could be made translates between three things. Its map takes the names of its rows to
their codes, and every code back to its name (`bijOn_codeOf`, `nameOf?_eq_some_iff_codeOf`). Any
other name is taken for the fallback, so that every name has a code of the map and comes to exactly
one resolution of the table. A code goes the way of its name, and a code without a name that of its
geometry (`resolutionOf?_eq_some_iff_of_unnamed`).

Each of these needs a different one of the checks that `ofTables` makes; `isTranslation_of_ofTables`
has them all, for whatever tables and fallback it accepts. That names do not repeat makes the map a
function of names, that codes do not repeat makes it one to one, that every row's name is a
resolution's makes the way through the code end in the table, and that the fallback has a row makes
it total.

A geometry may be that of several resolutions, and the checks do not forbid it. A code without a
name then comes to the first of these in the table (`IsFirstWith`); there is no inverse to this way.
-/

namespace VideoOutput.Mode

/-- The reference table is free of repetitions, so all the declared rows are kept. -/
theorem VicTable.rows_reference : VicTable.reference.rows = VicTable.declared := by
  decide +kernel

theorem VicTable.nodup_declared : (VicTable.declared.map VicRow.vic).Nodup := by
  decide +kernel

/-- A table with one row for every code finds its rows. -/
theorem VicTable.geometryOf?_eq_some_iff_mem {table : VicTable}
    (hnodup : (table.rows.map VicRow.vic).Nodup) {vic : UInt8} {g : Geometry} :
    table.geometryOf? vic = some g ↔ ⟨vic, g⟩ ∈ table.rows := by
  unfold geometryOf? rowOf?
  rw [Option.map_eq_some_iff]
  constructor
  · rintro ⟨row, hfind, rfl⟩
    obtain ⟨hrow, rfl⟩ := (find?_eq_some_iff_of_nodup hnodup).mp hfind
    exact hrow
  · intro hrow
    exact ⟨_, (find?_eq_some_iff_of_nodup hnodup).mpr ⟨hrow, rfl⟩, rfl⟩

/-- The reference table finds the declared rows. -/
theorem VicTable.geometryOf?_reference_eq_some_iff {vic : UInt8} {g : Geometry} :
    VicTable.reference.geometryOf? vic = some g ↔ ⟨vic, g⟩ ∈ VicTable.declared := by
  have hnodup : (VicTable.reference.rows.map VicRow.vic).Nodup := by
    rw [rows_reference]
    exact nodup_declared
  rw [geometryOf?_eq_some_iff_mem hnodup, rows_reference]

namespace Catalog

variable {catalog : Catalog} {resolutions : List Resolution} {modes : List ModeRow}
  {fallback : String}

/-- The names that a map has rows for. -/
def namesOf (modes : List ModeRow) : Set String :=
  { name | name ∈ modes.map ModeRow.name }

/-- The codes that a map has rows for. -/
def codesOf (modes : List ModeRow) : Set ModeCode :=
  { code | code ∈ modes.map ModeRow.code }

/-- The one resolution of a table that has a name. -/
def IsNamed (resolutions : List Resolution) (name : String) (r : Resolution) : Prop :=
  r ∈ resolutions ∧ ∀ r' ∈ resolutions, r'.name = name ↔ r' = r

/-- The first resolution of a table that has a geometry. -/
def IsFirstWith (resolutions : List Resolution) (g : Geometry) (r : Resolution) : Prop :=
  ∃ before after, resolutions = before ++ r :: after ∧ r.geometry = g ∧
    ∀ earlier ∈ before, earlier.geometry ≠ g

/-! ## Names and codes -/

theorem mem_namesOf {row : ModeRow} (hrow : row ∈ modes) : row.name ∈ namesOf modes :=
  List.mem_map_of_mem hrow

theorem mem_codesOf {row : ModeRow} (hrow : row ∈ modes) : row.code ∈ codesOf modes :=
  List.mem_map_of_mem hrow

/-- Codes and names are translated into each other by the rows. -/
theorem nameOf?_eq_some_iff_codeOf (h : catalog.IsConsistent) {code : ModeCode} {name : String} :
    catalog.nameOf? code = some name ↔
      name ∈ namesOf catalog.modes ∧ catalog.codeOf name = code := by
  rw [nameOf?_eq_some_iff h]
  constructor
  · intro hrow
    exact ⟨mem_namesOf hrow, codeOf_of_mem h hrow⟩
  · rintro ⟨hname, rfl⟩
    obtain ⟨row, hrow, rfl⟩ := List.mem_map.mp hname
    rw [codeOf_of_mem h hrow]
    exact hrow

/-- A code without a name is one that no row has. -/
theorem nameOf?_eq_none_iff {code : ModeCode} :
    catalog.nameOf? code = none ↔ code ∉ codesOf catalog.modes := by
  unfold nameOf?
  rw [Option.map_eq_none_iff]
  exact find?_eq_none_iff_key

/-- The names of the map stand for its codes one to one. -/
theorem bijOn_codeOf (h : catalog.IsConsistent) :
    Set.BijOn catalog.codeOf (namesOf catalog.modes) (codesOf catalog.modes) := by
  refine ⟨?mapsTo, ?injOn, ?surjOn⟩
  case mapsTo =>
    rintro _ hname
    obtain ⟨row, hrow, rfl⟩ := List.mem_map.mp hname
    rw [codeOf_of_mem h hrow]
    exact mem_codesOf hrow
  case injOn =>
    intro name hname name' hname' hcode
    have hback := (nameOf?_eq_some_iff_codeOf h).mpr ⟨hname, hcode⟩
    have hback' := (nameOf?_eq_some_iff_codeOf h).mpr ⟨hname', rfl⟩
    exact Option.some.inj (hback.symm.trans hback')
  case surjOn =>
    rintro _ hcode
    obtain ⟨row, hrow, rfl⟩ := List.mem_map.mp hcode
    exact ⟨row.name, mem_namesOf hrow, codeOf_of_mem h hrow⟩

/-- The code of the fallback is that of the fallback itself and of all names without a row. -/
theorem codeOf_eq_fallback_iff (h : catalog.IsConsistent)
    (hfallback : ⟨fallback, catalog.fallback⟩ ∈ catalog.modes) {name : String} :
    catalog.codeOf name = catalog.fallback ↔
      name ∉ namesOf catalog.modes ∨ name = fallback := by
  have hown : catalog.codeOf fallback = catalog.fallback := codeOf_of_mem h hfallback
  by_cases hname : name ∈ namesOf catalog.modes
  · rw [← hown, (bijOn_codeOf h).injOn.eq_iff hname (mem_namesOf hfallback)]
    exact ⟨Or.inr, fun hor => hor.resolve_left fun hno => hno hname⟩
  · exact iff_of_true (codeOf_of_unknown hname) (Or.inl hname)

/-! ## Resolutions -/

/-- In a consistent catalog every resolution is the one with its name. -/
theorem IsConsistent.isNamed (h : catalog.IsConsistent) {r : Resolution}
    (hr : r ∈ catalog.resolutions) : IsNamed catalog.resolutions r.name r := by
  refine ⟨hr, fun r' hr' => ⟨fun hname => eq_of_name_eq h hr' hr hname, ?_⟩⟩
  rintro rfl
  rfl

/-- A code with a name is resolved to the resolution of this name. -/
theorem exists_resolutionOf?_of_nameOf? (h : catalog.IsConsistent) {code : ModeCode}
    {name : String} (hname : catalog.nameOf? code = some name) :
    ∃ r, IsNamed catalog.resolutions name r ∧ catalog.resolutionOf? code = some r := by
  have hrow := (nameOf?_eq_some_iff h).mp hname
  obtain ⟨r, hr, rfl⟩ := List.mem_map.mp (h.known _ hrow)
  exact ⟨r, h.isNamed hr, resolutionOf?_of_mem h hr hrow⟩

/-- A mode code has the geometry of the identification code with the same number, if that is
declared. -/
theorem geometryOf?_eq_some_iff {code : ModeCode} {g : Geometry} :
    geometryOf? code = some g ↔
      ∃ vic : UInt8, vic.toNat = code.toNat ∧ ⟨vic, g⟩ ∈ VicTable.declared := by
  unfold geometryOf?
  constructor
  · intro hsome
    split at hsome
    next hsmall =>
      refine ⟨code.toUInt8, ?_, VicTable.geometryOf?_reference_eq_some_iff.mp hsome⟩
      rw [UInt32.toNat_toUInt8]
      exact Nat.mod_eq_of_lt hsmall
    next => exact absurd hsome (by simp)
  · rintro ⟨vic, hvic, hrow⟩
    have hsmall : code.toNat < 256 := hvic ▸ vic.toNat_lt
    have hsame : code.toUInt8 = vic := by
      apply UInt8.toNat_inj.mp
      rw [UInt32.toNat_toUInt8, hvic]
      exact Nat.mod_eq_of_lt hsmall
    rw [if_pos hsmall, hsame]
    exact VicTable.geometryOf?_reference_eq_some_iff.mpr hrow

/-- The search by geometry finds the first resolution of the table that has it. -/
theorem find?_geometry_eq_some_iff {g : Geometry} {r : Resolution} :
    (resolutions.find? fun r => r.geometry == g) = some r ↔ IsFirstWith resolutions g r := by
  unfold IsFirstWith
  rw [List.find?_eq_some_iff_append]
  simp only [beq_iff_eq, Bool.not_eq_eq_eq_not, Bool.not_true, beq_eq_false_iff_ne]
  constructor
  · rintro ⟨hgeometry, before, after, heq, hbefore⟩
    exact ⟨before, after, heq, hgeometry, hbefore⟩
  · rintro ⟨before, after, heq, hgeometry, hbefore⟩
    exact ⟨hgeometry, before, after, heq, hbefore⟩

/-- A code without a name is resolved as an identification code, by geometry, if at all. -/
theorem resolutionOf?_eq_some_iff_of_unnamed {code : ModeCode} (hname : catalog.nameOf? code = none)
    {r : Resolution} :
    catalog.resolutionOf? code = some r ↔
      ∃ vic g, vic.toNat = code.toNat ∧ ⟨vic, g⟩ ∈ VicTable.declared ∧
        IsFirstWith catalog.resolutions g r := by
  have hnamed : catalog.named? code = none := by
    unfold named?
    rw [hname]
    rfl
  have hgeometric : catalog.resolutionOf? code = catalog.byGeometry? code := by
    unfold resolutionOf?
    rw [hnamed]
  unfold byGeometry? at hgeometric
  rw [hgeometric, Option.bind_eq_some_iff]
  simp only [geometryOf?_eq_some_iff, find?_geometry_eq_some_iff]
  constructor
  · rintro ⟨g, ⟨vic, hvic, hrow⟩, hfirst⟩
    exact ⟨vic, g, hvic, hrow, hfirst⟩
  · rintro ⟨vic, g, hvic, hrow, hfirst⟩
    exact ⟨g, ⟨vic, hvic, hrow⟩, hfirst⟩

/-! ## All of it -/

/-- What a catalog of these tables, with this fallback, answers. -/
structure IsTranslation (resolutions : List Resolution) (modes : List ModeRow) (fallback : String)
    (catalog : Catalog) : Prop where
  /-- The names of the map stand for its codes one to one, -/
  oneToOne : Set.BijOn catalog.codeOf (namesOf modes) (codesOf modes)
  /-- each name for the code of its row, -/
  rows : ∀ row ∈ modes, catalog.codeOf row.name = row.code
  /-- and a code is named by the name that stands for it. -/
  inverse : ∀ code name,
    catalog.nameOf? code = some name ↔ name ∈ namesOf modes ∧ catalog.codeOf name = code
  /-- Codes of other maps have no name. -/
  unmapped : ∀ code, catalog.nameOf? code = none ↔ code ∉ codesOf modes
  /-- The fallback has a row, -/
  known : ⟨fallback, catalog.fallback⟩ ∈ modes
  /-- every name at all has a code of the map, -/
  total : ∀ name, catalog.codeOf name ∈ codesOf modes
  /-- and that of the fallback goes to those without a row. -/
  substitute : ∀ name, catalog.codeOf name = catalog.fallback ↔
    name ∉ namesOf modes ∨ name = fallback
  /-- Its code takes a name of the map to the resolution of this name, and any other to that of the
  fallback. -/
  resolved : ∀ name, ∃ r, IsNamed resolutions (nameFor modes fallback name) r ∧
    catalog.resolutionOf? (catalog.codeOf name) = some r
  /-- A code with a name is resolved to the resolution of this name, -/
  named : ∀ code name, catalog.nameOf? code = some name →
    ∃ r, IsNamed resolutions name r ∧ catalog.resolutionOf? code = some r
  /-- and one without to the first resolution with the geometry that it stands for as an
  identification code, if there are both. -/
  unnamed : ∀ code, catalog.nameOf? code = none → ∀ r, catalog.resolutionOf? code = some r ↔
    ∃ vic g, vic.toNat = code.toNat ∧ ⟨vic, g⟩ ∈ VicTable.declared ∧ IsFirstWith resolutions g r

/-- **Every catalog translates** between names, codes and resolutions, of whatever tables and with
whatever fallback it is made. -/
theorem isTranslation_of_ofTables (h : ofTables resolutions modes fallback = .ok catalog) :
    catalog.IsTranslation resolutions modes fallback := by
  obtain ⟨rfl, rfl, hconsistent, hfallback⟩ := ofTables_eq_ok_iff.mp h
  exact {
    oneToOne := bijOn_codeOf hconsistent
    rows := fun row hrow => codeOf_of_mem hconsistent hrow
    inverse := fun _ _ => nameOf?_eq_some_iff_codeOf hconsistent
    unmapped := fun _ => nameOf?_eq_none_iff
    known := hfallback
    total := fun name => mem_codesOf (row_codeOf hconsistent hfallback name)
    substitute := fun _ => codeOf_eq_fallback_iff hconsistent hfallback
    resolved := fun name =>
      exists_resolutionOf?_of_nameOf? hconsistent
        ((nameOf?_eq_some_iff hconsistent).mpr (row_codeOf hconsistent hfallback name))
    named := fun _ _ => exists_resolutionOf?_of_nameOf? hconsistent
    unnamed := fun _ hname _ => resolutionOf?_eq_some_iff_of_unnamed hname }

/-- With a map of two rows, names without a row go to the second one. The code 3 is resolved by
geometry, and the code 300 not at all. -/
theorem isTranslation_of_two_rows :
    ∃ catalog,
      ofTables Resolution.advertised [⟨"720p", 4⟩, ⟨"1080p60", 16⟩] "1080p60" = .ok catalog ∧
      catalog.IsTranslation Resolution.advertised [⟨"720p", 4⟩, ⟨"1080p60", 16⟩] "1080p60" ∧
      catalog.codeOf "2160p60" = 16 ∧
      (catalog.resolutionOf? 3).map Resolution.name = some "480p" ∧
      catalog.resolutionOf? 300 = none := by
  have hmade : ofTables Resolution.advertised [⟨"720p", 4⟩, ⟨"1080p60", 16⟩] "1080p60" =
      .ok ⟨Resolution.advertised, [⟨"720p", 4⟩, ⟨"1080p60", 16⟩], 16⟩ := by decide +kernel
  exact ⟨_, hmade, isTranslation_of_ofTables hmade, by decide +kernel, by decide +kernel,
    by decide +kernel⟩

end Catalog

end VideoOutput.Mode
