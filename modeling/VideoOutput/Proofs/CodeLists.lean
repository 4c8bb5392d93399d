import Mathlib.Data.List.Dedup
import VideoOutput.Proofs.Declarations
import VideoOutput.Proofs.Naming

/-!
# The codes of a geometry

A table of identification codes is asked in three ways: for the geometry of a code, for the codes of
a geometry, and for one code of a geometry. The answers come from the same rows. A table that was
made by one of the constructors has one row for every code (`IsMadeOf.keepsFirst`), so a code is on
the list of the geometry that it stands for and on no other, and the lists of all geometries share
the declared codes out among themselves (`perm_flatMap_codesOf`). `isIndex_of_isMadeOf` has all of
it.

`IsMadeOf` stands for either constructor. They agree on what the theorem needs, which is that the
rows of the table are those that declare a code for the first time, and the strict one only refuses
some lists of rows in addition. A code that is declared again with another geometry therefore counts
for its first one, and is missing from the list of the second.
-/

namespace VideoOutput.Mode.VicTable

variable {rows : List VicRow} {table : VicTable} {vic : UInt8} {g : Geometry}

/-- One of the constructors made the table of these rows. -/
def IsMadeOf (table : VicTable) (rows : List VicRow) : Prop :=
  ofRows rows = .ok table ∨ ofRowsLossy rows = table

/-- Whichever constructor made it, a table has the declarations among the rows. -/
theorem IsMadeOf.keepsFirst (h : table.IsMadeOf rows) : KeepsFirst rows table.rows := by
  rcases h with hstrict | hlossy
  · rw [(ofRows_eq_ok_iff.mp hstrict).2]
    exact keepsFirst_ofRowsLossy rows
  · rw [← hlossy]
    exact keepsFirst_ofRowsLossy rows

/-! ## The three questions -/

/-- A code is on the list of a geometry exactly if the table has the row. -/
theorem mem_codesOf_iff : vic ∈ table.codesOf g ↔ ⟨vic, g⟩ ∈ table.rows := by
  unfold codesOf
  rw [List.mem_map]
  constructor
  · intro h
    obtain ⟨row, hrow, rfl⟩ := h
    obtain ⟨hmem, hgeometry⟩ := List.mem_filter.mp hrow
    rw [← eq_of_beq hgeometry]
    exact hmem
  · intro hmem
    exact ⟨_, List.mem_filter.mpr ⟨hmem, beq_self_eq_true g⟩, rfl⟩

theorem codesOf_sublist (table : VicTable) (g : Geometry) :
    (table.codesOf g).Sublist (table.rows.map VicRow.vic) :=
  List.filter_sublist.map VicRow.vic

/-- The one code of a geometry is the first on its list. -/
theorem codeOf?_eq_head? (table : VicTable) (g : Geometry) :
    table.codeOf? g = (table.codesOf g).head? := by
  unfold codeOf? codesOf
  rw [List.head?_map, List.head?_filter]

/-! ## The lists of all geometries -/

theorem Geometry.nodup_all : Geometry.all.Nodup := by decide

/-- No code is on two of the lists. -/
theorem nodup_flatMap_codesOf (hnodup : (table.rows.map VicRow.vic).Nodup) :
    (Geometry.all.flatMap table.codesOf).Nodup := by
  refine List.nodup_flatMap.mpr ⟨?_, Geometry.nodup_all.imp ?_⟩
  · intro g _
    exact hnodup.sublist (table.codesOf_sublist g)
  · intro g g' hne vic hvic hvic'
    have hg := (geometryOf?_eq_some_iff_mem hnodup).mpr (mem_codesOf_iff.mp hvic)
    have hg' := (geometryOf?_eq_some_iff_mem hnodup).mpr (mem_codesOf_iff.mp hvic')
    exact hne (Option.some.inj (hg.symm.trans hg'))

/-- Every declared code is on one of the lists, as geometries are few and all of them known. -/
theorem mem_flatMap_codesOf :
    vic ∈ Geometry.all.flatMap table.codesOf ↔ vic ∈ table.rows.map VicRow.vic := by
  rw [List.mem_flatMap, List.mem_map]
  constructor
  · intro h
    obtain ⟨g, -, hvic⟩ := h
    exact ⟨_, mem_codesOf_iff.mp hvic, rfl⟩
  · intro h
    obtain ⟨row, hrow, rfl⟩ := h
    exact ⟨row.geometry, Geometry.mem_all _, mem_codesOf_iff.mpr hrow⟩

/-- **The lists share out the codes** that the rows declare. -/
theorem perm_flatMap_codesOf (h : KeepsFirst rows table.rows) :
    (Geometry.all.flatMap table.codesOf).Perm (rows.map VicRow.vic).dedup := by
  refine (List.perm_ext_iff_of_nodup (nodup_flatMap_codesOf h.nodup) (List.nodup_dedup _)).mpr ?_
  intro vic
  rw [mem_flatMap_codesOf, h.codes, List.mem_dedup]

/-! ## All of it -/

/-- What a table of these rows answers. -/
structure IsIndex (rows : List VicRow) (table : VicTable) : Prop where
  /-- A code is listed for the geometry that it stands for and for no other, -/
  listed : ∀ vic g, vic ∈ table.codesOf g ↔ table.geometryOf? vic = some g
  /-- and it is listed once. -/
  once : ∀ vic g, table.geometryOf? vic = some g → (table.codesOf g).count vic = 1
  /-- The code of a geometry is the first of its list, -/
  first : ∀ g, table.codeOf? g = (table.codesOf g).head?
  /-- so there is none exactly if the list is empty, -/
  empty : ∀ g, table.codeOf? g = none ↔ table.codesOf g = []
  /-- and it stands for the geometry. -/
  inverse : ∀ g vic, table.codeOf? g = some vic → table.geometryOf? vic = some g
  /-- The lists of all geometries together have every code of the rows once, and no others, -/
  together : (Geometry.all.flatMap table.codesOf).Perm (rows.map VicRow.vic).dedup
  /-- and every list is in the order in which its codes are declared. -/
  order : ∀ g, (table.codesOf g).Pairwise fun vic vic' => placeOf rows vic < placeOf rows vic'

/-- **A table answers consistently**, of whatever rows and by whichever constructor it is made. -/
theorem isIndex_of_isMadeOf (h : table.IsMadeOf rows) : IsIndex rows table := by
  have hkept := h.keepsFirst
  have hlisted : ∀ vic g, vic ∈ table.codesOf g ↔ table.geometryOf? vic = some g := by
    intro vic g
    rw [mem_codesOf_iff, geometryOf?_eq_some_iff_mem hkept.nodup]
  refine {
    listed := hlisted
    once := ?once
    first := table.codeOf?_eq_head?
    empty := ?empty
    inverse := ?inverse
    together := perm_flatMap_codesOf hkept
    order := ?order }
  case once =>
    intro vic g hg
    exact List.count_eq_one_of_mem (hkept.nodup.sublist (table.codesOf_sublist g))
      ((hlisted vic g).mpr hg)
  case empty =>
    intro g
    rw [codeOf?_eq_head?, List.head?_eq_none_iff]
  case inverse =>
    intro g vic hcode
    rw [codeOf?_eq_head?] at hcode
    exact (hlisted vic g).mp (List.mem_of_head? hcode)
  case order =>
    intro g
    have horder : (table.rows.map VicRow.vic).Pairwise fun vic vic' =>
        placeOf rows vic < placeOf rows vic' := List.pairwise_map.mpr hkept.order
    exact horder.sublist (table.codesOf_sublist g)

/-- Of the rows with a code that is repeated, one agrees with its declaration and one does not. -/
theorem isIndex_of_repeated_rows :
    ∃ table, IsMadeOf table
        [⟨16, .hd1080⟩, ⟨4, .hd720⟩, ⟨16, .hd1080⟩, ⟨4, .sd480⟩, ⟨5, .hd1080⟩] ∧
      IsIndex [⟨16, .hd1080⟩, ⟨4, .hd720⟩, ⟨16, .hd1080⟩, ⟨4, .sd480⟩, ⟨5, .hd1080⟩] table ∧
      table.codesOf .hd1080 = [16, 5] ∧ table.codesOf .sd480 = [] := by
  have hmade : IsMadeOf ⟨[⟨16, .hd1080⟩, ⟨4, .hd720⟩, ⟨5, .hd1080⟩]⟩
      [⟨16, .hd1080⟩, ⟨4, .hd720⟩, ⟨16, .hd1080⟩, ⟨4, .sd480⟩, ⟨5, .hd1080⟩] := .inr (by decide)
  exact ⟨_, hmade, isIndex_of_isMadeOf hmade, by decide, by decide⟩

end VideoOutput.Mode.VicTable
