import Mathlib.Data.List.Induction
import VideoOutput.Proofs.TableFaults

/-!
# Rows that repeat a code

A list of rows may declare an identification code more than once. Both constructors of a table go
through the rows with what they kept so far, and what is kept is always the rows that declare a code
for the first time, in this order (`KeepsFirst`): a row of an old code changes nothing, and a row of
a new one goes to the end (`KeepsFirst.keep`).

The constructors differ in what they do with a row that contradicts the declaration of its code. The
lossy one passes over it. The strict one stops there, so it is a scan like those of the catalog's
tables, with a judgement of its own (`ofRows_eq_scan`). Where no row contradicts another they make
the same table, and on what one of them has kept both change nothing (`keeps_first_declarations`).
-/

namespace VideoOutput.Mode.VicTable

open Catalog (scan scan_cons_of_fault scan_cons_of_no_fault scan_append_singleton_eq_ok_iff
  scan_eq_error_iff)

variable {rows kept : List VicRow} {row first : VicRow} {vic : UInt8} {table : VicTable}
  {e : TableError}

/-! ## Declarations -/

/-- The row declares its code: it is the first one that has it. -/
def Declares (rows : List VicRow) (row : VicRow) : Prop :=
  ∃ before after, rows = before ++ row :: after ∧ ∀ earlier ∈ before, earlier.vic ≠ row.vic

/-- No code stands for two geometries. -/
def Agree (rows : List VicRow) : Prop :=
  ∀ row ∈ rows, ∀ row' ∈ rows, row.vic = row'.vic → row.geometry = row'.geometry

/-- The place at which a code is declared. -/
def placeOf (rows : List VicRow) (vic : UInt8) : Nat :=
  (rows.map VicRow.vic).idxOf vic

/-- The error for the earliest row that contradicts a row before it: it tells what the code of the
row was declared to stand for, and what the row has instead. -/
inductive FirstContradiction (rows : List VicRow) : TableError → Prop where
  | row {before after : List VicRow} {row first : VicRow} (hsplit : rows = before ++ row :: after)
      (hbefore : Agree before) (hfirst : Declares before first) (hvic : first.vic = row.vic)
      (hgeometry : first.geometry ≠ row.geometry) :
      FirstContradiction rows (.conflictingVic row.vic first.geometry row.geometry)

/-- Looking for a code finds the row that declares it. -/
theorem rowOf?_eq_some_iff_declares :
    rowOf? rows vic = some row ↔ Declares rows row ∧ row.vic = vic := by
  unfold rowOf? Declares
  rw [List.find?_eq_some_iff_append]
  simp only [beq_iff_eq, Bool.not_eq_eq_eq_not, Bool.not_true, beq_eq_false_iff_ne]
  constructor
  · intro h
    obtain ⟨rfl, before, after, hsplit, hbefore⟩ := h
    exact ⟨⟨before, after, hsplit, hbefore⟩, rfl⟩
  · intro h
    obtain ⟨⟨before, after, hsplit, hbefore⟩, rfl⟩ := h
    exact ⟨rfl, before, after, hsplit, hbefore⟩

/-- A code has no row exactly if no row declares it. -/
theorem rowOf?_eq_none_iff_vic : rowOf? rows vic = none ↔ vic ∉ rows.map VicRow.vic :=
  find?_eq_none_iff_key

theorem Declares.mem (h : Declares rows row) : row ∈ rows := by
  obtain ⟨before, after, rfl, -⟩ := h
  simp

/-- A declaration is the row that is found for its code. -/
theorem Declares.rowOf? (h : Declares rows row) : rowOf? rows row.vic = some row :=
  rowOf?_eq_some_iff_declares.mpr ⟨h, rfl⟩

/-- Every code that occurs is declared. -/
theorem exists_declares (h : vic ∈ rows.map VicRow.vic) :
    ∃ row, Declares rows row ∧ row.vic = vic := by
  cases hfind : rowOf? rows vic with
  | none => exact absurd h (rowOf?_eq_none_iff_vic.mp hfind)
  | some row => exact ⟨row, rowOf?_eq_some_iff_declares.mp hfind⟩

/-- A further row declares its code if this is a new one, and takes nothing from the others. -/
theorem declares_append_singleton {r : VicRow} :
    Declares (rows ++ [row]) r ↔
      Declares rows r ∨ r = row ∧ row.vic ∉ rows.map VicRow.vic := by
  -- a row declares its code if it is the one that a search finds
  have hiff : ∀ rows, Declares rows r ↔ VicTable.rowOf? rows r.vic = some r := by
    intro rows
    rw [rowOf?_eq_some_iff_declares]
    exact (and_iff_left rfl).symm
  rw [hiff, hiff]
  unfold VicTable.rowOf?
  rw [List.find?_append]
  cases hfind : rows.find? fun x => x.vic == r.vic with
  | some found =>
    have hold : r.vic ∈ rows.map VicRow.vic := by
      by_contra hnew
      exact absurd (hfind.symm.trans (find?_eq_none_iff_key.mpr hnew)) (by simp)
    rw [Option.some_or]
    constructor
    · intro heq
      exact .inl heq
    · intro h
      rcases h with heq | ⟨rfl, hnew⟩
      · exact heq
      · exact absurd hold hnew
  | none =>
    have hnew := find?_eq_none_iff_key.mp hfind
    rw [Option.none_or]
    constructor
    · intro heq
      obtain rfl : r = row := List.mem_singleton.mp (List.mem_of_find?_eq_some heq)
      exact .inr ⟨rfl, hnew⟩
    · intro h
      rcases h with heq | ⟨rfl, -⟩
      · exact absurd heq (by simp)
      · simp

theorem agree_nil : Agree [] := by
  intro row hrow
  exact absurd hrow (by simp)

/-- A further row agrees with the others if it agrees with the one that declares its code. -/
theorem agree_append_singleton :
    Agree (rows ++ [row]) ↔
      Agree rows ∧ ∀ first, Declares rows first → first.vic = row.vic →
        first.geometry = row.geometry := by
  constructor
  · intro h
    constructor
    · intro r hr r' hr'
      exact h r (List.mem_append_left _ hr) r' (List.mem_append_left _ hr')
    · intro first hfirst
      exact h first (List.mem_append_left _ hfirst.mem) row (by simp)
  · intro h
    obtain ⟨hrows, hrow⟩ := h
    -- a row before that has the code agrees with the declaration, and so with the last row
    have hlast : ∀ r ∈ rows, r.vic = row.vic → r.geometry = row.geometry := by
      intro r hr hvic
      obtain ⟨first, hfirst, hsame⟩ := exists_declares (List.mem_map_of_mem hr)
      have hdeclared := hrow first hfirst (hsame.trans hvic)
      exact (hrows r hr first hfirst.mem hsame.symm).trans hdeclared
    intro r hr r' hr' hvic
    rcases List.mem_append.mp hr with hfront | hend
    · rcases List.mem_append.mp hr' with hfront' | hend'
      · exact hrows r hfront r' hfront' hvic
      · rw [List.mem_singleton.mp hend'] at hvic ⊢
        exact hlast r hfront hvic
    · rw [List.mem_singleton.mp hend] at hvic ⊢
      rcases List.mem_append.mp hr' with hfront' | hend'
      · exact (hlast r' hfront' hvic.symm).symm
      · rw [List.mem_singleton.mp hend']

/-! ## What is kept -/

/-- What was kept so far, and one more row. -/
def keep (kept : List VicRow) (row : VicRow) : List VicRow :=
  if row.vic ∈ kept.map VicRow.vic then kept else kept ++ [row]

theorem addLossy_eq_foldl (kept rows : List VicRow) :
    addLossy kept rows = rows.foldl keep kept := by
  induction rows generalizing kept with
  | nil => rfl
  | cons row rest ih =>
    rw [addLossy, List.foldl_cons, keep]
    split
    next hnone => rw [if_neg (rowOf?_eq_none_iff_vic.mp hnone), ih]
    next first hfirst =>
      have hold : row.vic ∈ kept.map VicRow.vic := by
        rw [← (rowOf?_eq_some_iff_declares.mp hfirst).2]
        exact List.mem_map_of_mem (rowOf?_eq_some_iff_declares.mp hfirst).1.mem
      rw [if_pos hold, ih]

/-- A row at the end is kept or passed over, and the rows before it stay. -/
theorem rows_ofRowsLossy_append_singleton (rows : List VicRow) (row : VicRow) :
    (ofRowsLossy (rows ++ [row])).rows = keep (ofRowsLossy rows).rows row := by
  unfold ofRowsLossy
  rw [addLossy_eq_foldl, addLossy_eq_foldl, List.foldl_append]
  rfl

/-- Rows that declare different codes, none of them kept yet, are all kept. -/
theorem addLossy_of_nodup (h : ((kept ++ rows).map VicRow.vic).Nodup) :
    addLossy kept rows = kept ++ rows := by
  induction rows generalizing kept with
  | nil => simp [addLossy]
  | cons row rest ih =>
    have hnew : row.vic ∉ kept.map VicRow.vic := by
      rw [List.map_append, List.map_cons] at h
      intro hold
      exact (List.disjoint_of_nodup_append h) hold (by simp)
    rw [addLossy, rowOf?_eq_none_iff_vic.mpr hnew]
    dsimp only
    rw [ih (by simpa using h), List.append_assoc, List.singleton_append]

/-- The kept rows are the declarations among the rows. -/
structure KeepsFirst (rows kept : List VicRow) : Prop where
  /-- No code is there twice, -/
  nodup : (kept.map VicRow.vic).Nodup
  /-- all that occur are there and no others, -/
  codes : ∀ vic, vic ∈ kept.map VicRow.vic ↔ vic ∈ rows.map VicRow.vic
  /-- each with the row that declares it, -/
  members : ∀ row, row ∈ kept ↔ Declares rows row
  /-- and they are in the order in which they are declared. -/
  order : kept.Pairwise fun row row' => placeOf rows row.vic < placeOf rows row'.vic

theorem keepsFirst_nil : KeepsFirst [] [] where
  nodup := List.nodup_nil
  codes := by simp
  members := by simp [Declares]
  order := List.Pairwise.nil

/-- Where a code was declared does not change with a further row. -/
theorem placeOf_append_of_mem (h : vic ∈ rows.map VicRow.vic) (row : VicRow) :
    placeOf (rows ++ [row]) vic = placeOf rows vic := by
  unfold placeOf
  rw [List.map_append]
  exact List.idxOf_append_of_mem h

/-- A code that occurs has a place among the rows. -/
theorem placeOf_lt_length (h : vic ∈ rows.map VicRow.vic) : placeOf rows vic < rows.length := by
  have hlt := List.idxOf_lt_length_of_mem h
  rw [List.length_map] at hlt
  exact hlt

/-- A code that is new has its place behind all rows before. -/
theorem length_le_placeOf_append (h : row.vic ∉ rows.map VicRow.vic) :
    rows.length ≤ placeOf (rows ++ [row]) row.vic := by
  unfold placeOf
  rw [List.map_append, List.idxOf_append_of_notMem h, List.length_map]
  exact Nat.le_add_right _ _

/-- The order of what was kept does not change when a row is added. -/
theorem KeepsFirst.order_append (h : KeepsFirst rows kept) (row : VicRow) :
    kept.Pairwise fun r r' => placeOf (rows ++ [row]) r.vic < placeOf (rows ++ [row]) r'.vic := by
  refine h.order.imp_of_mem ?_
  intro r r' hr hr' hlt
  rw [placeOf_append_of_mem ((h.codes _).mp (List.mem_map_of_mem hr)),
    placeOf_append_of_mem ((h.codes _).mp (List.mem_map_of_mem hr'))]
  exact hlt

/-- **What is kept stays right** with every further row. -/
theorem KeepsFirst.keep (h : KeepsFirst rows kept) (row : VicRow) :
    KeepsFirst (rows ++ [row]) (keep kept row) := by
  unfold VicTable.keep
  split
  next hold =>
    -- the code was declared before, so there is no new declaration either
    have hdeclared := (h.codes _).mp hold
    refine ⟨h.nodup, ?_, ?_, h.order_append row⟩
    · intro vic
      rw [h.codes, List.map_append, List.mem_append, or_iff_left_of_imp]
      intro hvic
      rw [List.mem_singleton.mp hvic]
      exact hdeclared
    · intro r
      rw [h.members, declares_append_singleton, or_iff_left_of_imp]
      intro hlast
      exact absurd hdeclared hlast.2
  next hnew =>
    -- the row is the last of what is kept, and it is declared behind all others
    have hundeclared : row.vic ∉ rows.map VicRow.vic := fun hin => hnew ((h.codes _).mpr hin)
    refine ⟨?_, ?_, ?_, ?_⟩
    · rw [List.map_append, List.map_singleton, ← List.concat_eq_append]
      exact h.nodup.concat hnew
    · intro vic
      rw [List.map_append, List.map_append, List.mem_append, List.mem_append, h.codes]
    · intro r
      rw [List.mem_append, h.members, declares_append_singleton, List.mem_singleton,
        and_iff_left hundeclared]
    · refine List.pairwise_append.mpr ⟨h.order_append row, List.pairwise_singleton _ _, ?_⟩
      intro r hr last hlast
      rw [List.mem_singleton.mp hlast]
      have hr := (h.codes _).mp (List.mem_map_of_mem hr)
      rw [placeOf_append_of_mem hr]
      exact Nat.lt_of_lt_of_le (placeOf_lt_length hr) (length_le_placeOf_append hundeclared)

/-- The lossy constructor keeps the declarations. -/
theorem keepsFirst_ofRowsLossy (rows : List VicRow) : KeepsFirst rows (ofRowsLossy rows).rows := by
  induction rows using List.reverseRecOn with
  | nil => exact keepsFirst_nil
  | append_singleton rows row ih =>
    rw [rows_ofRowsLossy_append_singleton]
    exact ih.keep row

/-- A table finds the row that declares a code, whatever was passed over. -/
theorem rowOf?_ofRowsLossy (rows : List VicRow) (vic : UInt8) :
    rowOf? (ofRowsLossy rows).rows vic = rowOf? rows vic := by
  have hkept := keepsFirst_ofRowsLossy rows
  apply Option.ext
  intro row
  have hdeclared : rowOf? rows vic = some row ↔ Declares rows row ∧ row.vic = vic :=
    rowOf?_eq_some_iff_declares
  rw [hdeclared, ← hkept.members]
  exact find?_eq_some_iff_of_nodup hkept.nodup

/-! ## Where the strict constructor stops -/

/-- What is wrong with a row after those that were seen, the latest first. -/
def contradiction? (seen : List VicRow) (row : VicRow) : Option TableError :=
  match rowOf? seen.reverse row.vic with
  | none => none
  | some first =>
    if first.geometry = row.geometry then none
    else some (.conflictingVic row.vic first.geometry row.geometry)

/-- A row is told to contradict the declaration of its code, with both geometries. -/
theorem contradiction?_eq_some_iff {seen : List VicRow} :
    contradiction? seen row = some e ↔
      ∃ first, Declares seen.reverse first ∧ first.vic = row.vic ∧
        first.geometry ≠ row.geometry ∧
        e = .conflictingVic row.vic first.geometry row.geometry := by
  unfold contradiction?
  constructor
  · intro h
    split at h
    next => exact absurd h (by simp)
    next first hfirst =>
      split at h
      next => exact absurd h (by simp)
      next hgeometry =>
        obtain ⟨hdeclares, hvic⟩ := rowOf?_eq_some_iff_declares.mp hfirst
        exact ⟨first, hdeclares, hvic, hgeometry, (Option.some.inj h).symm⟩
  · intro h
    obtain ⟨first, hdeclares, hvic, hgeometry, rfl⟩ := h
    rw [rowOf?_eq_some_iff_declares.mpr ⟨hdeclares, hvic⟩]
    exact if_neg hgeometry

/-- Nothing is wrong with a row that agrees with the declaration of its code, if there is one. -/
theorem contradiction?_eq_none_iff {seen : List VicRow} :
    contradiction? seen row = none ↔
      ∀ first, Declares seen.reverse first → first.vic = row.vic →
        first.geometry = row.geometry := by
  constructor
  · intro hnone first hdeclares hvic
    by_contra hgeometry
    have hsome := contradiction?_eq_some_iff.mpr ⟨first, hdeclares, hvic, hgeometry, rfl⟩
    exact absurd (hnone.symm.trans hsome) (by simp)
  · intro hall
    cases hfault : contradiction? seen row with
    | none => rfl
    | some e =>
      obtain ⟨first, hdeclares, hvic, hgeometry, -⟩ := contradiction?_eq_some_iff.mp hfault
      exact absurd (hall first hdeclares hvic) hgeometry

/-- The strict constructor is a scan, with the rows of the lossy one as what it has kept. -/
theorem addStrict_eq_scan (seen rows : List VicRow) :
    addStrict (ofRowsLossy seen.reverse).rows rows =
      (scan contradiction? seen rows).map fun _ => (ofRowsLossy (seen.reverse ++ rows)).rows := by
  induction rows generalizing seen with
  | nil => simp [addStrict, scan, Except.map]
  | cons row rest ih =>
    have hnext := rows_ofRowsLossy_append_singleton seen.reverse row
    have hrest := ih (row :: seen)
    rw [List.reverse_cons, hnext, List.append_assoc, List.singleton_append] at hrest
    rw [addStrict, rowOf?_ofRowsLossy, scan, contradiction?]
    cases hfirst : rowOf? seen.reverse row.vic with
    | none =>
      dsimp only
      rw [← hrest, keep, if_neg]
      rw [(keepsFirst_ofRowsLossy _).codes]
      exact rowOf?_eq_none_iff_vic.mp hfirst
    | some first =>
      obtain ⟨hdeclares, hvic⟩ := rowOf?_eq_some_iff_declares.mp hfirst
      have hold : row.vic ∈ (ofRowsLossy seen.reverse).rows.map VicRow.vic := by
        rw [(keepsFirst_ofRowsLossy _).codes, ← hvic]
        exact List.mem_map_of_mem hdeclares.mem
      rw [keep, if_pos hold] at hrest
      dsimp only
      by_cases hgeometry : first.geometry = row.geometry
      · rw [if_pos hgeometry, if_pos hgeometry]
        exact hrest
      · rw [if_neg hgeometry, if_neg hgeometry]
        rfl

/-- The strict constructor stops at a contradiction, and makes the table of the lossy one if there
is none. -/
theorem ofRows_eq_scan (rows : List VicRow) :
    ofRows rows = (scan contradiction? [] rows).map fun _ => ofRowsLossy rows := by
  have hscan := addStrict_eq_scan [] rows
  unfold ofRows
  rw [show addStrict [] rows = _ from hscan]
  cases scan contradiction? [] rows with
  | error e => rfl
  | ok _ => rfl

theorem scan_contradiction?_eq_ok_iff : scan contradiction? [] rows = .ok () ↔ Agree rows := by
  induction rows using List.reverseRecOn with
  | nil => exact iff_of_true rfl agree_nil
  | append_singleton rows row ih =>
    rw [scan_append_singleton_eq_ok_iff, ih, agree_append_singleton, contradiction?_eq_none_iff,
      List.append_nil, List.reverse_reverse]

/-- The strict constructor makes a table exactly of rows that agree, and it is the lossy one's. -/
theorem ofRows_eq_ok_iff : ofRows rows = .ok table ↔ Agree rows ∧ table = ofRowsLossy rows := by
  rw [ofRows_eq_scan, ← scan_contradiction?_eq_ok_iff]
  cases hscan : scan contradiction? [] rows with
  | error e => simp [Except.map]
  | ok _ => simp [Except.map, eq_comm]

theorem ofRows_eq_error_iff : ofRows rows = .error e ↔ FirstContradiction rows e := by
  have hscan : ofRows rows = .error e ↔ scan contradiction? [] rows = .error e := by
    rw [ofRows_eq_scan]
    cases scan contradiction? [] rows with
    | error e' => simp [Except.map]
    | ok _ => simp [Except.map]
  rw [hscan, scan_eq_error_iff]
  simp only [scan_contradiction?_eq_ok_iff, contradiction?_eq_some_iff, List.append_nil,
    List.reverse_reverse]
  constructor
  · intro h
    obtain ⟨before, row, after, hsplit, hbefore, first, hfirst, hvic, hgeometry, rfl⟩ := h
    exact .row hsplit hbefore hfirst hvic hgeometry
  · intro h
    cases h with
    | row hsplit hbefore hfirst hvic hgeometry =>
      exact ⟨_, _, _, hsplit, hbefore, _, hfirst, hvic, hgeometry, rfl⟩

/-! ## The two constructors -/

/-- Where no code is repeated no row contradicts another. -/
theorem agree_of_nodup (h : (rows.map VicRow.vic).Nodup) : Agree rows := by
  intro row hrow row' hrow' hvic
  rw [List.inj_on_of_nodup_map h hrow hrow' hvic]

/-- A table is made again of its own rows. -/
theorem ofRowsLossy_of_nodup (h : (table.rows.map VicRow.vic).Nodup) :
    ofRowsLossy table.rows = table := by
  have hall : addLossy [] table.rows = table.rows := addLossy_of_nodup h
  unfold ofRowsLossy
  rw [hall]

/-- **The first declaration of a code is kept.** Of whatever rows, the strict constructor makes a
table exactly if no code stands for two geometries, and then the one that the lossy constructor
makes; otherwise its error is about the earliest row that contradicts one before it. The table of
the lossy constructor has the declarations of all codes in their order, and both constructors make
it again of its own rows. -/
theorem keeps_first_declarations (rows : List VicRow) :
    (∀ table, ofRows rows = .ok table ↔ Agree rows ∧ table = ofRowsLossy rows) ∧
    (∀ e, ofRows rows = .error e ↔ FirstContradiction rows e) ∧
    KeepsFirst rows (ofRowsLossy rows).rows ∧
    ofRows (ofRowsLossy rows).rows = .ok (ofRowsLossy rows) ∧
    ofRowsLossy (ofRowsLossy rows).rows = ofRowsLossy rows := by
  have hkept := keepsFirst_ofRowsLossy rows
  have hagain := ofRowsLossy_of_nodup hkept.nodup
  refine ⟨?accepted, ?refused, hkept, ?strict, hagain⟩
  case accepted =>
    intro table
    exact ofRows_eq_ok_iff
  case refused =>
    intro e
    exact ofRows_eq_error_iff
  case strict => exact ofRows_eq_ok_iff.mpr ⟨agree_of_nodup hkept.nodup, hagain.symm⟩

/-- Of three rows of the code 4 the second one agrees with the first and the third one does not. -/
example : ofRows [⟨4, .hd720⟩, ⟨16, .hd1080⟩, ⟨4, .hd720⟩, ⟨4, .sd480⟩, ⟨16, .sd576⟩] =
    .error (.conflictingVic 4 .hd720 .sd480) := by
  decide

end VideoOutput.Mode.VicTable
