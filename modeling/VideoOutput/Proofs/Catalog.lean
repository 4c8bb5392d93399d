import Mathlib.Data.List.Nodup
import VideoOutput.Mode.Catalog

/-!
# Consistent catalogs

A catalog looks things up by going through its tables from the front: rows by name, rows by code,
resolutions by name. In a consistent catalog (`IsConsistent`) no two entries have the same key, so
each of these finds exactly what is in the table, and a code whose row names a resolution is
resolved to this one (`resolutionOf?_of_mem`).

`ofTables` makes consistent catalogs, and all of them (`ofTables_eq_ok_iff`); so the platform's
catalog with any fallback is one. It has moreover a code for each of its resolutions
(`exists_row_of_mem_advertised`).

Searching from the front finds the first entry with a key, and the first is the only one where keys
do not repeat. This is shown once for lists with a key of any type (`find?_eq_some_iff_of_nodup`),
and every lookup is a case of it. The checks that `ofTables` runs go through a table with the keys
seen so far; from an empty start that they pass means that no key repeats (`fresh_iff_nodup`).

A name that the map does not know is given the code of the fallback (`codeOf_of_unknown`), which is
itself the code of a row. So every name has a code, and in a consistent catalog every code that a
name can be given has a resolution (`exists_resolutionOf?_codeOf`).
-/

namespace VideoOutput.Mode

/-! ## Keys -/

section Keys

variable {α β : Type}

/-- The keys repeat neither one another nor one that was seen before. -/
def Fresh (seen keys : List β) : Prop :=
  keys.Nodup ∧ seen.Disjoint keys

theorem fresh_nil (seen : List β) : Fresh seen [] :=
  ⟨List.nodup_nil, List.disjoint_nil_right seen⟩

theorem fresh_cons {seen keys : List β} {k : β} :
    Fresh seen (k :: keys) ↔ k ∉ seen ∧ Fresh (k :: seen) keys := by
  unfold Fresh
  rw [List.nodup_cons, List.disjoint_cons_right, List.disjoint_cons_left]
  tauto

/-- From an empty start, fresh keys are keys without a repetition. -/
theorem fresh_iff_nodup {keys : List β} : Fresh [] keys ↔ keys.Nodup := by
  unfold Fresh
  simp

variable [BEq β] [LawfulBEq β] {key : α → β} {l : List α}

theorem any_key_iff {k : β} : (l.any fun x => key x == k) = true ↔ k ∈ l.map key := by
  rw [List.any_eq_true, List.mem_map]
  simp only [beq_iff_eq]

/-- Where no two entries of a list have the same key, looking for a key finds the entry with it. -/
theorem find?_eq_some_iff_of_nodup (hnodup : (l.map key).Nodup) {a : α} {k : β} :
    l.find? (fun x => key x == k) = some a ↔ a ∈ l ∧ key a = k := by
  constructor
  · intro h
    exact ⟨List.mem_of_find?_eq_some h, eq_of_beq (List.find?_some (p := fun x => key x == k) h)⟩
  · rintro ⟨ha, rfl⟩
    cases hfind : l.find? fun x => key x == key a with
    | none =>
      have hno := List.find?_eq_none.mp hfind a ha
      exact absurd (beq_self_eq_true (key a)) hno
    | some b =>
      have hb := List.mem_of_find?_eq_some hfind
      have hkey : key b = key a :=
        eq_of_beq (List.find?_some (p := fun x => key x == key a) hfind)
      rw [List.inj_on_of_nodup_map hnodup hb ha hkey]

/-- Nothing is found exactly if the key does not occur. -/
theorem find?_eq_none_iff_key {k : β} : l.find? (fun x => key x == k) = none ↔ k ∉ l.map key := by
  rw [← any_key_iff, List.find?_eq_none, List.any_eq_true]
  push Not
  rfl

end Keys

namespace Catalog

variable {catalog : Catalog}

/-- What makes a catalog answer one thing to every question. -/
structure IsConsistent (catalog : Catalog) : Prop where
  /-- No two resolutions have the same name. -/
  names : (catalog.resolutions.map Resolution.name).Nodup
  /-- No two rows of the map have the same name, -/
  modeNames : (catalog.modes.map ModeRow.name).Nodup
  /-- and no two the same code. -/
  codes : (catalog.modes.map ModeRow.code).Nodup
  /-- Every row names a resolution. -/
  known : ∀ row ∈ catalog.modes, row.name ∈ catalog.resolutions.map Resolution.name

/-! ## The checks -/

/-- The check of the resolutions passes exactly if no name repeats. -/
theorem checkNames_eq_ok_iff {seen : List String} {resolutions : List Resolution} :
    checkNames seen resolutions = .ok () ↔ Fresh seen (resolutions.map Resolution.name) := by
  induction resolutions generalizing seen with
  | nil => exact ⟨fun _ => fresh_nil seen, fun _ => rfl⟩
  | cons r rest ih =>
    rw [checkNames, List.map_cons, fresh_cons]
    by_cases hseen : r.name ∈ seen
    · rw [if_pos hseen]
      exact ⟨fun h => absurd h (by simp), fun h => absurd hseen h.1⟩
    · rw [if_neg hseen, ih]
      exact ⟨fun h => ⟨hseen, h⟩, fun h => h.2⟩

/-- The check of the rows passes exactly if no name and no code repeats and every name is that of a
resolution. -/
theorem checkModes_eq_ok_iff {resolutions : List Resolution} {seen modes : List ModeRow} :
    checkModes resolutions seen modes = .ok () ↔
      Fresh (seen.map ModeRow.name) (modes.map ModeRow.name) ∧
        Fresh (seen.map ModeRow.code) (modes.map ModeRow.code) ∧
          ∀ row ∈ modes, row.name ∈ resolutions.map Resolution.name := by
  induction modes generalizing seen with
  | nil => exact ⟨fun _ => ⟨fresh_nil _, fresh_nil _, by simp⟩, fun _ => rfl⟩
  | cons row rest ih =>
    simp only [checkModes, any_key_iff, List.map_cons, fresh_cons, List.forall_mem_cons]
    by_cases hname : row.name ∈ seen.map ModeRow.name
    · rw [if_pos hname]
      exact ⟨fun h => absurd h (by simp), fun h => absurd hname h.1.1⟩
    · rw [if_neg hname]
      by_cases hcode : row.code ∈ seen.map ModeRow.code
      · rw [if_pos hcode]
        exact ⟨fun h => absurd h (by simp), fun h => absurd hcode h.2.1.1⟩
      · rw [if_neg hcode]
        by_cases hknown : row.name ∈ resolutions.map Resolution.name
        · rw [if_pos hknown, ih, List.map_cons, List.map_cons]
          constructor
          · rintro ⟨hnames, hcodes, hall⟩
            exact ⟨⟨hname, hnames⟩, ⟨hcode, hcodes⟩, hknown, hall⟩
          · rintro ⟨⟨-, hnames⟩, ⟨-, hcodes⟩, -, hall⟩
            exact ⟨hnames, hcodes, hall⟩
        · rw [if_neg hknown]
          exact ⟨fun h => absurd h (by simp), fun h => absurd h.2.2.1 hknown⟩

/-- Rows of a map are found by their names. -/
theorem rowOf?_eq_some_iff {modes : List ModeRow} (hnodup : (modes.map ModeRow.name).Nodup)
    {name : String} {row : ModeRow} :
    rowOf? modes name = some row ↔ row ∈ modes ∧ row.name = name :=
  find?_eq_some_iff_of_nodup hnodup

/-- There is no row for a name that does not occur. -/
theorem rowOf?_eq_none_iff {modes : List ModeRow} {name : String} :
    rowOf? modes name = none ↔ name ∉ modes.map ModeRow.name :=
  find?_eq_none_iff_key

/-- **The catalogs that can be made** are the consistent ones whose fallback the map knows. -/
theorem ofTables_eq_ok_iff {resolutions : List Resolution} {modes : List ModeRow}
    {fallback : String} :
    ofTables resolutions modes fallback = .ok catalog ↔
      catalog.resolutions = resolutions ∧ catalog.modes = modes ∧ catalog.IsConsistent ∧
        ⟨fallback, catalog.fallback⟩ ∈ modes := by
  constructor
  · -- the three checks that passed on the way are the consistency
    intro h
    unfold ofTables at h
    split at h
    next => exact absurd h (by simp)
    next hnames =>
      split at h
      next => exact absurd h (by simp)
      next hmodes =>
        split at h
        next => exact absurd h (by simp)
        next row hrow =>
          obtain ⟨hmodeNames, hcodes, hknown⟩ := checkModes_eq_ok_iff.mp hmodes
          have hfallback := (rowOf?_eq_some_iff (fresh_iff_nodup.mp hmodeNames)).mp hrow
          obtain rfl := Except.ok.inj h
          obtain ⟨hmem, rfl⟩ := hfallback
          exact ⟨rfl, rfl, ⟨fresh_iff_nodup.mp (checkNames_eq_ok_iff.mp hnames),
            fresh_iff_nodup.mp hmodeNames, fresh_iff_nodup.mp hcodes, hknown⟩, hmem⟩
  · rintro ⟨rfl, rfl, hconsistent, hfallback⟩
    have hnames : checkNames [] catalog.resolutions = .ok () :=
      checkNames_eq_ok_iff.mpr (fresh_iff_nodup.mpr hconsistent.names)
    have hmodes : checkModes catalog.resolutions [] catalog.modes = .ok () :=
      checkModes_eq_ok_iff.mpr ⟨fresh_iff_nodup.mpr hconsistent.modeNames,
        fresh_iff_nodup.mpr hconsistent.codes, hconsistent.known⟩
    have hrow := (rowOf?_eq_some_iff hconsistent.modeNames).mpr ⟨hfallback, rfl⟩
    unfold ofTables
    rw [hnames, hmodes, hrow]

/-! ## What a consistent catalog finds -/

/-- In a consistent catalog a resolution is found by its name, and no other one is. -/
theorem find?_eq_some_iff (h : catalog.IsConsistent) {name : String} {r : Resolution} :
    catalog.find? name = some r ↔ r ∈ catalog.resolutions ∧ r.name = name :=
  find?_eq_some_iff_of_nodup h.names

/-- A name from the map has its own code. -/
theorem codeOf_of_mem (h : catalog.IsConsistent) {row : ModeRow} (hrow : row ∈ catalog.modes) :
    catalog.codeOf row.name = row.code := by
  unfold codeOf
  rw [(rowOf?_eq_some_iff h.modeNames).mpr ⟨hrow, rfl⟩]

/-- Any other name has the code of the fallback. -/
theorem codeOf_of_unknown {name : String} (hname : name ∉ catalog.modes.map ModeRow.name) :
    catalog.codeOf name = catalog.fallback := by
  unfold codeOf
  rw [rowOf?_eq_none_iff.mpr hname]

/-- The name that a catalog with these rows takes in place of a name: the name itself if it has a
row, and otherwise the fallback. -/
def nameFor (modes : List ModeRow) (fallback name : String) : String :=
  if name ∈ modes.map ModeRow.name then name else fallback

theorem nameFor_of_mem {modes : List ModeRow} {row : ModeRow} (hrow : row ∈ modes)
    (fallback : String) : nameFor modes fallback row.name = row.name :=
  if_pos (List.mem_map_of_mem hrow)

/-- Whatever the name, its code is one of the map. -/
theorem row_codeOf (h : catalog.IsConsistent) {fallback : String}
    (hfallback : ⟨fallback, catalog.fallback⟩ ∈ catalog.modes) (name : String) :
    ⟨nameFor catalog.modes fallback name, catalog.codeOf name⟩ ∈ catalog.modes := by
  unfold nameFor
  by_cases hname : name ∈ catalog.modes.map ModeRow.name
  · obtain ⟨row, hrow, rfl⟩ := List.mem_map.mp hname
    rw [if_pos hname, codeOf_of_mem h hrow]
    exact hrow
  · rw [if_neg hname, codeOf_of_unknown hname]
    exact hfallback

/-- In a consistent catalog a code has the name of its row, and no other one. -/
theorem nameOf?_eq_some_iff (h : catalog.IsConsistent) {code : ModeCode} {name : String} :
    catalog.nameOf? code = some name ↔ ⟨name, code⟩ ∈ catalog.modes := by
  unfold nameOf?
  rw [Option.map_eq_some_iff]
  constructor
  · rintro ⟨row, hfind, rfl⟩
    obtain ⟨hrow, rfl⟩ := (find?_eq_some_iff_of_nodup h.codes).mp hfind
    exact hrow
  · intro hrow
    exact ⟨_, (find?_eq_some_iff_of_nodup h.codes).mpr ⟨hrow, rfl⟩, rfl⟩

/-- A code with a row is resolved to the resolution that the row names, never by geometry. -/
theorem resolutionOf?_of_mem (h : catalog.IsConsistent) {r : Resolution} {code : ModeCode}
    (hr : r ∈ catalog.resolutions) (hrow : ⟨r.name, code⟩ ∈ catalog.modes) :
    catalog.resolutionOf? code = some r := by
  have hnamed : catalog.named? code = some r := by
    unfold named?
    rw [(nameOf?_eq_some_iff h).mpr hrow]
    exact (find?_eq_some_iff h).mpr ⟨hr, rfl⟩
  unfold resolutionOf?
  rw [hnamed]

/-- A name is turned into a code, and the code is resolved to the resolution of the name, or of the
fallback. -/
theorem exists_resolutionOf?_codeOf (h : catalog.IsConsistent) {fallback : String}
    (hfallback : ⟨fallback, catalog.fallback⟩ ∈ catalog.modes) (name : String) :
    ∃ r ∈ catalog.resolutions, r.name = nameFor catalog.modes fallback name ∧
      ⟨r.name, catalog.codeOf name⟩ ∈ catalog.modes ∧
      catalog.resolutionOf? (catalog.codeOf name) = some r := by
  have hrow := row_codeOf h hfallback name
  obtain ⟨r, hr, hname⟩ := List.mem_map.mp (h.known _ hrow)
  have hname' : r.name = nameFor catalog.modes fallback name := hname
  rw [← hname'] at hrow
  exact ⟨r, hr, hname', hrow, resolutionOf?_of_mem h hr hrow⟩

/-- Two resolutions of the table with one name are the same. -/
theorem eq_of_name_eq (h : catalog.IsConsistent) {r r' : Resolution} (hr : r ∈ catalog.resolutions)
    (hr' : r' ∈ catalog.resolutions) (hname : r.name = r'.name) : r = r' :=
  List.inj_on_of_nodup_map h.names hr hr' hname

/-- A resolution is accepted if the map has a row for it whose code is among those given. -/
theorem mem_accepted_iff (h : catalog.IsConsistent) {codes : List ModeCode} {r : Resolution} :
    r ∈ catalog.accepted codes ↔
      r ∈ catalog.resolutions ∧ ∃ code ∈ codes, ⟨r.name, code⟩ ∈ catalog.modes := by
  unfold accepted
  rw [List.mem_filter]
  refine and_congr_right fun _ => ?_
  cases hfind : rowOf? catalog.modes r.name with
  | none =>
    have hunknown := rowOf?_eq_none_iff.mp hfind
    refine iff_of_false (by simp) ?_
    rintro ⟨code, -, hrow⟩
    exact hunknown (List.mem_map_of_mem hrow)
  | some row =>
    obtain ⟨hrow, hname⟩ := (rowOf?_eq_some_iff h.modeNames).mp hfind
    dsimp only
    rw [List.contains_iff_mem]
    constructor
    · intro hcode
      rw [← hname]
      exact ⟨row.code, hcode, hrow⟩
    · rintro ⟨code, hcode, hmem⟩
      have hsame := codeOf_of_mem h hmem
      rw [← codeOf_of_mem h hrow, hname, hsame]
      exact hcode

/-! ## What every catalog finds -/

/-- A code is resolved to a resolution of the table, by name or by geometry. -/
theorem mem_of_resolutionOf? {code : ModeCode} {r : Resolution}
    (h : catalog.resolutionOf? code = some r) : r ∈ catalog.resolutions := by
  unfold resolutionOf? at h
  split at h
  next r' hn =>
    obtain ⟨name, -, hf⟩ := Option.bind_eq_some_iff.mp hn
    exact List.mem_of_find?_eq_some (hf.trans h)
  next =>
    obtain ⟨g, -, hf⟩ := Option.bind_eq_some_iff.mp h
    exact List.mem_of_find?_eq_some hf

theorem accepted_sublist (catalog : Catalog) (codes : List ModeCode) :
    (catalog.accepted codes).Sublist catalog.resolutions :=
  List.filter_sublist

theorem accepted_nil (catalog : Catalog) : catalog.accepted [] = [] := by
  unfold accepted
  rw [List.filter_eq_nil_iff]
  intro r _
  split
  next => simp
  next => simp

/-! ## The platform's catalogs -/

/-- The platform's catalog can be made with a fallback exactly if the platform has a mode of this
name. -/
theorem withFallback_eq_ok_iff {fallback : String} :
    withFallback fallback = .ok catalog ↔
      catalog.resolutions = Resolution.advertised ∧ catalog.modes = platformModes ∧
        catalog.IsConsistent ∧ ⟨fallback, catalog.fallback⟩ ∈ platformModes :=
  ofTables_eq_ok_iff

/-- Another fallback does not change the table. -/
theorem resolutions_of_withFallback {fallback : String} (h : withFallback fallback = .ok catalog) :
    catalog.resolutions = Resolution.advertised :=
  (withFallback_eq_ok_iff.mp h).1

/-- On the platform every name is turned into a code that is resolved again. -/
theorem exists_resolutionOf?_of_withFallback {fallback : String}
    (h : withFallback fallback = .ok catalog) (name : String) :
    ∃ r ∈ Resolution.advertised, r.name = nameFor platformModes fallback name ∧
      ⟨r.name, catalog.codeOf name⟩ ∈ platformModes ∧
      catalog.resolutionOf? (catalog.codeOf name) = some r := by
  obtain ⟨hresolutions, hmodes, hconsistent, hfallback⟩ := withFallback_eq_ok_iff.mp h
  rw [← hmodes] at hfallback
  have hfound := exists_resolutionOf?_codeOf hconsistent hfallback name
  rw [hresolutions, hmodes] at hfound
  exact hfound

theorem withFallback_platformFallback : withFallback platformFallback = .ok platform := rfl

/-- The platform has a mode for every resolution. -/
theorem exists_row_of_mem_advertised {r : Resolution} (hr : r ∈ Resolution.advertised) :
    ∃ code, ⟨r.name, code⟩ ∈ platformModes := by
  have hall : ∀ r ∈ Resolution.advertised, r.name ∈ platformModes.map ModeRow.name := by decide
  obtain ⟨⟨name, code⟩, hrow, hname⟩ := List.mem_map.mp (hall r hr)
  exact ⟨code, hname ▸ hrow⟩

end Catalog

end VideoOutput.Mode
