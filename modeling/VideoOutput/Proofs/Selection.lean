import Mathlib.Data.List.Dedup
import VideoOutput.Proofs.Naming

/-!
# The resolutions of a list of codes

A display lists mode codes, and a catalog selects the resolutions whose code is among them
(`accepted`). What is selected from is always the table, in its order; the codes only decide which
of its resolutions are in. So a selection is determined by its members: whoever is in one and in
another as well, and the other way round, is in the same list (`accepted_eq_of_mem_iff`), and the
laws of selections are statements about membership.

The map is one to one, so each code that has a name brings in one resolution, and no two bring in
the same (`perm_codes_accepted`). This is how selections are counted. `isSelection_of_ofTables` has
all of it, for every catalog that could be made.

Membership has a simple form in a consistent catalog: a resolution is selected if the code of its
row is on the list (`mem_accepted_iff`). That the order of the codes and repetitions among them do
not matter, that codes without a name may be left out, and that joined lists select the union, are
all read off it.
-/

namespace VideoOutput.Mode.Catalog

variable {catalog : Catalog} {resolutions : List Resolution} {modes : List ModeRow}
  {fallback : String} {codes codes' : List ModeCode} {r : Resolution}

/-! ## Selections and their members -/

/-- Whoever satisfies one condition also satisfies the other: then the one selection is part of the
other, in the same order. -/
theorem filter_sublist_filter {α : Type} {p q : α → Bool} {l : List α}
    (h : ∀ a ∈ l.filter p, a ∈ l.filter q) : (l.filter p).Sublist (l.filter q) := by
  have hboth : l.filter p = (l.filter q).filter p := by
    rw [List.filter_filter]
    apply List.filter_congr
    intro a ha
    cases hp : p a with
    | false => rfl
    | true =>
      have hq := (List.mem_filter.mp (h a (List.mem_filter.mpr ⟨ha, hp⟩))).2
      exact hq.symm
  rw [hboth]
  exact List.filter_sublist

/-- A selection with fewer members is the larger one with some left out. -/
theorem accepted_sublist_accepted (h : ∀ r ∈ catalog.accepted codes, r ∈ catalog.accepted codes') :
    (catalog.accepted codes).Sublist (catalog.accepted codes') :=
  filter_sublist_filter h

/-- A selection is determined by its members. -/
theorem accepted_eq_of_mem_iff
    (h : ∀ r, r ∈ catalog.accepted codes ↔ r ∈ catalog.accepted codes') :
    catalog.accepted codes = catalog.accepted codes' := by
  have hthere := accepted_sublist_accepted fun r hr => (h r).mp hr
  have hback := accepted_sublist_accepted fun r hr => (h r).mpr hr
  exact hthere.antisymm hback

/-- No resolution is selected twice. -/
theorem nodup_accepted (h : catalog.IsConsistent) (codes : List ModeCode) :
    (catalog.accepted codes).Nodup :=
  h.names.of_map.sublist (accepted_sublist catalog codes)

/-- The code of a selected resolution is on the list. -/
theorem codeOf_mem_of_mem_accepted (h : catalog.IsConsistent) (hr : r ∈ catalog.accepted codes) :
    ⟨r.name, catalog.codeOf r.name⟩ ∈ catalog.modes ∧ catalog.codeOf r.name ∈ codes := by
  obtain ⟨-, code, hcode, hrow⟩ := (mem_accepted_iff h).mp hr
  have hcodeOf : catalog.codeOf r.name = code := codeOf_of_mem h hrow
  rw [hcodeOf]
  exact ⟨hrow, hcode⟩

/-! ## One code, one resolution -/

/-- A code with a name brings in the resolution of this name, and only this one has the code. -/
theorem mem_accepted_iff_eq (h : catalog.IsConsistent) {code : ModeCode} {name : String}
    (hname : catalog.nameOf? code = some name) (hr : IsNamed catalog.resolutions name r)
    (hcode : code ∈ codes) (r' : Resolution) :
    r' ∈ catalog.accepted codes ∧ catalog.codeOf r'.name = code ↔ r' = r := by
  have hown : r.name = name := (hr.2 r hr.1).mpr rfl
  have hrow : ⟨r.name, code⟩ ∈ catalog.modes := by
    rw [hown]
    exact (nameOf?_eq_some_iff h).mp hname
  constructor
  · intro hr'
    obtain ⟨hsel, hsame⟩ := hr'
    have hrow' := (codeOf_mem_of_mem_accepted h hsel).1
    rw [hsame] at hrow'
    -- the code has one name, and the name one resolution
    have hname' : some r'.name = some name :=
      ((nameOf?_eq_some_iff h).mpr hrow').symm.trans hname
    exact (hr.2 r' ((mem_accepted_iff h).mp hsel).1).mp (Option.some.inj hname')
  · intro heq
    subst heq
    exact ⟨(mem_accepted_iff h).mpr ⟨hr.1, code, hcode, hrow⟩, codeOf_of_mem h hrow⟩

/-- On its own a code with a name brings in its resolution and nothing else. -/
theorem accepted_singleton (h : catalog.IsConsistent) {code : ModeCode} {name : String}
    (hname : catalog.nameOf? code = some name) (hr : IsNamed catalog.resolutions name r) :
    catalog.accepted [code] = [r] := by
  have hmem : ∀ r', r' ∈ catalog.accepted [code] ↔ r' ∈ [r] := by
    intro r'
    rw [List.mem_singleton, ← mem_accepted_iff_eq h hname hr (List.mem_singleton_self code) r']
    constructor
    · intro hr'
      exact ⟨hr', List.mem_singleton.mp (codeOf_mem_of_mem_accepted h hr').2⟩
    · intro hr'
      exact hr'.1
  have hperm := (List.perm_ext_iff_of_nodup (nodup_accepted h [code]) (List.nodup_singleton r)).mpr
    hmem
  exact List.perm_singleton.mp hperm

/-! ## Counting -/

/-- **The selected resolutions stand for the codes that have a name**, one for each. -/
theorem perm_codes_accepted (h : catalog.IsConsistent) (codes : List ModeCode) :
    ((catalog.accepted codes).map fun r => catalog.codeOf r.name).Perm
      (codes.filter fun code => (catalog.nameOf? code).isSome).dedup := by
  have hnodup : ((catalog.accepted codes).map fun r => catalog.codeOf r.name).Nodup := by
    refine List.Nodup.map_on ?_ (nodup_accepted h codes)
    intro r hr r' hr' hcode
    have hrow := (codeOf_mem_of_mem_accepted h hr).1
    have hrow' := (codeOf_mem_of_mem_accepted h hr').1
    have hname : r.name = r'.name :=
      (bijOn_codeOf h).injOn (mem_namesOf hrow) (mem_namesOf hrow') hcode
    exact eq_of_name_eq h ((mem_accepted_iff h).mp hr).1 ((mem_accepted_iff h).mp hr').1 hname
  refine (List.perm_ext_iff_of_nodup hnodup (List.nodup_dedup _)).mpr ?_
  intro code
  rw [List.mem_dedup, List.mem_filter, List.mem_map, Option.isSome_iff_exists]
  constructor
  · intro hcode
    obtain ⟨r, hr, rfl⟩ := hcode
    obtain ⟨hrow, hlisted⟩ := codeOf_mem_of_mem_accepted h hr
    exact ⟨hlisted, r.name, (nameOf?_eq_some_iff h).mpr hrow⟩
  · intro hcode
    obtain ⟨hlisted, name, hname⟩ := hcode
    obtain ⟨r, hr, -⟩ := exists_resolutionOf?_of_nameOf? h hname
    exact ⟨r, (mem_accepted_iff_eq h hname hr hlisted r).mpr rfl⟩

/-! ## All of it -/

/-- What a catalog of these tables selects by a list of codes. -/
structure IsSelection (resolutions : List Resolution) (modes : List ModeRow)
    (catalog : Catalog) : Prop where
  /-- Resolutions of the table, in its order, -/
  sublist : ∀ codes, (catalog.accepted codes).Sublist resolutions
  /-- each at most once, -/
  nodup : ∀ codes, (catalog.accepted codes).Nodup
  /-- and those whose name has a row with a code on the list; -/
  members : ∀ codes r, r ∈ catalog.accepted codes ↔
    r ∈ resolutions ∧ ∃ code ∈ codes, ⟨r.name, code⟩ ∈ modes
  /-- so their codes are all on the list. -/
  listed : ∀ codes, ∀ r ∈ catalog.accepted codes, catalog.codeOf r.name ∈ codes
  /-- A code with a name brings in the resolution of this name and no other. -/
  own : ∀ code name, catalog.nameOf? code = some name →
    ∃ r, IsNamed resolutions name r ∧ catalog.accepted [code] = [r] ∧
      ∀ codes, code ∈ codes → ∀ r',
        r' ∈ catalog.accepted codes ∧ catalog.codeOf r'.name = code ↔ r' = r
  /-- There are as many as there are different codes with a name on the list. -/
  length : ∀ codes,
    (catalog.accepted codes).length =
      (codes.filter fun code => (catalog.nameOf? code).isSome).dedup.length
  /-- It does not matter in which order the codes are listed, -/
  perm : ∀ codes codes', codes.Perm codes' → catalog.accepted codes = catalog.accepted codes'
  /-- nor which codes without a name, nor how often each code: lists with the same named codes select
  the same. -/
  same : ∀ codes codes',
    (∀ code, (catalog.nameOf? code).isSome → (code ∈ codes ↔ code ∈ codes')) →
      catalog.accepted codes = catalog.accepted codes'
  /-- Further codes take nothing away, -/
  grows : ∀ codes codes', codes ⊆ codes' →
    (catalog.accepted codes).Sublist (catalog.accepted codes')
  /-- and two lists together select what one of them selects. -/
  append : ∀ codes codes' r, r ∈ catalog.accepted (codes ++ codes') ↔
    r ∈ catalog.accepted codes ∨ r ∈ catalog.accepted codes'

theorem accepted_eq_of_named (h : catalog.IsConsistent)
    (hsame : ∀ code, (catalog.nameOf? code).isSome → (code ∈ codes ↔ code ∈ codes')) :
    catalog.accepted codes = catalog.accepted codes' := by
  apply accepted_eq_of_mem_iff
  intro r
  rw [mem_accepted_iff h, mem_accepted_iff h]
  refine and_congr_right fun _ => exists_congr fun code => ?_
  refine and_congr_left fun hrow => hsame code ?_
  rw [(nameOf?_eq_some_iff h).mpr hrow]
  rfl

/-- **What is selected**, by every catalog that could be made and whatever list of codes. -/
theorem isSelection_of_ofTables (hmade : ofTables resolutions modes fallback = .ok catalog) :
    catalog.IsSelection resolutions modes := by
  obtain ⟨rfl, rfl, h, -⟩ := ofTables_eq_ok_iff.mp hmade
  refine {
    sublist := accepted_sublist catalog
    nodup := nodup_accepted h
    members := ?members
    listed := ?listed
    own := ?own
    length := ?length
    perm := ?perm
    same := ?same
    grows := ?grows
    append := ?append }
  case members =>
    intro codes r
    exact mem_accepted_iff h
  case listed =>
    intro codes r hr
    exact (codeOf_mem_of_mem_accepted h hr).2
  -- a code with a name brings in one resolution, and it alone
  case own =>
    intro code name hname
    obtain ⟨r, hr, -⟩ := exists_resolutionOf?_of_nameOf? h hname
    refine ⟨r, hr, accepted_singleton h hname hr, ?_⟩
    intro codes hcode
    exact mem_accepted_iff_eq h hname hr hcode
  case length =>
    intro codes
    have hlength := (perm_codes_accepted h codes).length_eq
    rw [List.length_map] at hlength
    exact hlength
  -- order and repetition do not matter, as both sides have the same named codes
  case perm =>
    intro codes codes' hperm
    apply accepted_eq_of_named h
    intro code _
    exact hperm.mem_iff
  case same =>
    intro codes codes' hsame
    exact accepted_eq_of_named h hsame
  case grows =>
    intro codes codes' hsub
    apply accepted_sublist_accepted
    intro r hr
    obtain ⟨hmem, code, hcode, hrow⟩ := (mem_accepted_iff h).mp hr
    exact (mem_accepted_iff h).mpr ⟨hmem, code, hsub hcode, hrow⟩
  case append =>
    intro codes codes' r
    simp only [mem_accepted_iff h, List.mem_append, or_and_right, exists_or, and_or_left]

/-- A table whose resolutions have no code, but for two, and a list with both codes in the wrong
order, one of them twice, and one that has no name. -/
theorem isSelection_of_two_rows :
    ∃ catalog,
      ofTables Resolution.advertised [⟨"720p", 4⟩, ⟨"1080p60", 16⟩] "1080p60" = .ok catalog ∧
      catalog.IsSelection Resolution.advertised [⟨"720p", 4⟩, ⟨"1080p60", 16⟩] ∧
      (catalog.accepted [16, 300, 4, 16]).map Resolution.name = ["720p", "1080p60"] := by
  have hmade : ofTables Resolution.advertised [⟨"720p", 4⟩, ⟨"1080p60", 16⟩] "1080p60" =
      .ok ⟨Resolution.advertised, [⟨"720p", 4⟩, ⟨"1080p60", 16⟩], 16⟩ := by decide +kernel
  exact ⟨_, hmade, isSelection_of_ofTables hmade, by decide +kernel⟩

end VideoOutput.Mode.Catalog
