import VideoOutput.Proofs.Catalog

/-!
# Why tables are refused

A catalog is made of two tables and a name for the fallback. `ofTables` goes through the resolutions
and then through the rows of the map, each time with the entries seen before, and stops at the first
one that is at fault; last it looks for the fallback. Both ways through a table are one scan with a
judgement of its own, and where a scan stops is said once, for every judgement
(`scan_eq_error_iff`): at the entry that is at fault after entries none of which was.

So the error tells which of the faults comes first (`FirstFault`), and there is none exactly if the
tables are consistent and the map knows the fallback (`ofTables_isJudged`).

A row can have several faults at once. Its name may repeat, its code may, and no resolution may have
its name; they are looked for in this order and the row is told with the first (`RowFault`). The
entries that a scan has seen are kept with the latest one in front, while a fault is stated over the
rows before in the order of the table; for what a row can be at fault with the order does not matter
(`rowFault?_reverse`).
-/

namespace VideoOutput.Mode.Catalog

/-! ## Scans -/

section Scan

variable {α ε : Type}

/-- Go through a list until an entry is at fault after those that were seen, the latest first. -/
def scan (fault? : List α → α → Option ε) (seen : List α) : List α → Except ε Unit
  | [] => .ok ()
  | a :: rest =>
    match fault? seen a with
    | some e => .error e
    | none => scan fault? (a :: seen) rest

variable {fault? : List α → α → Option ε} {seen : List α} {a : α} {e : ε}

/-- A scan stops at an entry that is at fault. -/
theorem scan_cons_of_fault (h : fault? seen a = some e) (rest : List α) :
    scan fault? seen (a :: rest) = .error e := by
  rw [scan, h]

/-- It goes on behind any other, which counts as seen from then on. -/
theorem scan_cons_of_no_fault (h : fault? seen a = none) (rest : List α) :
    scan fault? seen (a :: rest) = scan fault? (a :: seen) rest := by
  rw [scan, h]

/-- **A scan stops** at the first entry that is at fault. -/
theorem scan_eq_error_iff {l : List α} :
    scan fault? seen l = .error e ↔
      ∃ before a after, l = before ++ a :: after ∧ scan fault? seen before = .ok () ∧
        fault? (before.reverse ++ seen) a = some e := by
  induction l generalizing seen with
  | nil =>
    constructor
    · intro h
      exact absurd h (by simp [scan])
    · intro h
      obtain ⟨before, a, after, hsplit, -⟩ := h
      exact absurd hsplit (by simp)
  | cons b rest ih =>
    cases hb : fault? seen b with
    | some e' =>
      rw [scan_cons_of_fault hb]
      constructor
      · intro h
        obtain rfl := Except.error.inj h
        exact ⟨[], b, rest, rfl, rfl, hb⟩
      · intro h
        obtain ⟨before, a, after, hsplit, hbefore, ha⟩ := h
        cases before with
        | nil =>
          obtain ⟨rfl, rfl⟩ := List.cons.inj hsplit
          exact congrArg Except.error (Option.some.inj (hb.symm.trans ha))
        | cons b' before =>
          -- the scan would not have come past the first entry
          obtain ⟨rfl, -⟩ := List.cons.inj hsplit
          rw [scan_cons_of_fault hb] at hbefore
          exact absurd hbefore (by simp)
    | none =>
      rw [scan_cons_of_no_fault hb, ih]
      constructor
      · intro h
        obtain ⟨before, a, after, rfl, hbefore, ha⟩ := h
        refine ⟨b :: before, a, after, rfl, ?_, ?_⟩
        · rw [scan_cons_of_no_fault hb]
          exact hbefore
        · rw [List.reverse_cons, List.append_assoc]
          exact ha
      · intro h
        obtain ⟨before, a, after, hsplit, hbefore, ha⟩ := h
        cases before with
        | nil =>
          obtain ⟨rfl, -⟩ := List.cons.inj hsplit
          exact absurd (hb.symm.trans ha) (by simp)
        | cons b' before =>
          obtain ⟨rfl, rfl⟩ := List.cons.inj hsplit
          rw [scan_cons_of_no_fault hb] at hbefore
          rw [List.reverse_cons, List.append_assoc] at ha
          exact ⟨before, a, after, rfl, hbefore, ha⟩

/-- A scan comes past a last entry if it comes past the others and this one is not at fault. -/
theorem scan_append_singleton_eq_ok_iff {l : List α} :
    scan fault? seen (l ++ [a]) = .ok () ↔
      scan fault? seen l = .ok () ∧ fault? (l.reverse ++ seen) a = none := by
  induction l generalizing seen with
  | nil =>
    cases ha : fault? seen a with
    | some e => simp [scan, ha]
    | none => simp [scan, ha]
  | cons b rest ih =>
    rw [List.cons_append]
    cases hb : fault? seen b with
    | some e => simp [scan_cons_of_fault hb]
    | none =>
      rw [scan_cons_of_no_fault hb, scan_cons_of_no_fault hb, ih, List.reverse_cons,
        List.append_assoc, List.singleton_append]

end Scan

/-! ## Faults of resolutions -/

variable {resolutions : List Resolution} {modes : List ModeRow} {fallback : String}
  {e : TableError}

/-- What is wrong with a resolution after those that were seen. -/
def nameFault? (seen : List Resolution) (r : Resolution) : Option TableError :=
  if r.name ∈ seen.map Resolution.name then some (.duplicateName r.name) else none

theorem checkNames_eq_scan (seen resolutions : List Resolution) :
    checkNames (seen.map Resolution.name) resolutions = scan nameFault? seen resolutions := by
  induction resolutions generalizing seen with
  | nil => rfl
  | cons r rest ih =>
    rw [checkNames, scan, nameFault?]
    by_cases hname : r.name ∈ seen.map Resolution.name
    · rw [if_pos hname, if_pos hname]
    · rw [if_neg hname, if_neg hname]
      exact ih (r :: seen)

/-- The resolutions are refused for the first one with the name of an earlier one. -/
theorem checkNames_eq_error_iff :
    checkNames [] resolutions = .error e ↔
      ∃ before r after, resolutions = before ++ r :: after ∧
        (before.map Resolution.name).Nodup ∧ r.name ∈ before.map Resolution.name ∧
        e = .duplicateName r.name := by
  have hfault : ∀ (before : List Resolution) (r : Resolution),
      nameFault? (before.reverse ++ []) r = some e ↔
        r.name ∈ before.map Resolution.name ∧ e = .duplicateName r.name := by
    intro before r
    unfold nameFault?
    rw [List.append_nil, List.map_reverse]
    simp only [List.mem_reverse, Option.ite_none_right_eq_some, Option.some.injEq]
    rw [eq_comm (a := e)]
  have hbefore : ∀ before : List Resolution,
      scan nameFault? [] before = .ok () ↔ (before.map Resolution.name).Nodup := by
    intro before
    rw [← checkNames_eq_scan, List.map_nil, checkNames_eq_ok_iff, fresh_iff_nodup]
  have hscan := checkNames_eq_scan [] resolutions
  rw [List.map_nil] at hscan
  rw [hscan, scan_eq_error_iff]
  simp only [hfault, hbefore]

/-! ## Faults of rows -/

/-- The rows can be those of a map to these resolutions. -/
structure RowsFit (resolutions : List Resolution) (rows : List ModeRow) : Prop where
  names : (rows.map ModeRow.name).Nodup
  codes : (rows.map ModeRow.code).Nodup
  known : ∀ row ∈ rows, row.name ∈ resolutions.map Resolution.name

/-- What is wrong with a row after the rows before it: a repeated name counts more than a repeated
code, and this more than a name that no resolution has. -/
inductive RowFault (resolutions : List Resolution) (before : List ModeRow) (row : ModeRow) :
    TableError → Prop where
  | name (hname : row.name ∈ before.map ModeRow.name) :
      RowFault resolutions before row (.duplicateName row.name)
  | code (hname : row.name ∉ before.map ModeRow.name)
      (hcode : row.code ∈ before.map ModeRow.code) :
      RowFault resolutions before row (.duplicateMode row.code)
  | unknown (hname : row.name ∉ before.map ModeRow.name)
      (hcode : row.code ∉ before.map ModeRow.code)
      (hunknown : row.name ∉ resolutions.map Resolution.name) :
      RowFault resolutions before row (.unknownName row.name)

/-- What is wrong with a row after those that were seen. -/
def rowFault? (resolutions : List Resolution) (seen : List ModeRow) (row : ModeRow) :
    Option TableError :=
  if row.name ∈ seen.map ModeRow.name then some (.duplicateName row.name)
  else if row.code ∈ seen.map ModeRow.code then some (.duplicateMode row.code)
  else if row.name ∈ resolutions.map Resolution.name then none
  else some (.unknownName row.name)

/-- What a row is told to be at fault with. -/
theorem rowFault?_eq_some_iff {seen : List ModeRow} {row : ModeRow} :
    rowFault? resolutions seen row = some e ↔ RowFault resolutions seen row e := by
  unfold rowFault?
  constructor
  · intro h
    split at h
    next hname =>
      obtain rfl := Option.some.inj h
      exact .name hname
    next hname =>
      split at h
      next hcode =>
        obtain rfl := Option.some.inj h
        exact .code hname hcode
      next hcode =>
        split at h
        next => exact absurd h (by simp)
        next hunknown =>
          obtain rfl := Option.some.inj h
          exact .unknown hname hcode hunknown
  · intro h
    cases h with
    | name hname => rw [if_pos hname]
    | code hname hcode => rw [if_neg hname, if_pos hcode]
    | unknown hname hcode hunknown => rw [if_neg hname, if_neg hcode, if_neg hunknown]

/-- In which order the rows were seen does not matter. -/
theorem rowFault?_reverse (seen : List ModeRow) (row : ModeRow) :
    rowFault? resolutions seen.reverse row = rowFault? resolutions seen row := by
  unfold rowFault?
  simp only [List.map_reverse, List.mem_reverse]

/-- The rows are scanned for names and codes that repeat and for names without a resolution. -/
theorem checkModes_eq_scan (seen modes : List ModeRow) :
    checkModes resolutions seen modes = scan (rowFault? resolutions) seen modes := by
  induction modes generalizing seen with
  | nil => rfl
  | cons row rest ih =>
    rw [checkModes, scan, rowFault?]
    simp only [any_key_iff]
    by_cases hname : row.name ∈ seen.map ModeRow.name
    · rw [if_pos hname, if_pos hname]
    · rw [if_neg hname, if_neg hname]
      by_cases hcode : row.code ∈ seen.map ModeRow.code
      · rw [if_pos hcode, if_pos hcode]
      · rw [if_neg hcode, if_neg hcode]
        by_cases hknown : row.name ∈ resolutions.map Resolution.name
        · rw [if_pos hknown, if_pos hknown]
          exact ih (row :: seen)
        · rw [if_neg hknown, if_neg hknown]

/-- The scan passes exactly if the rows fit the resolutions. -/
theorem checkModes_eq_ok_iff_rowsFit :
    checkModes resolutions [] modes = .ok () ↔ RowsFit resolutions modes := by
  rw [checkModes_eq_ok_iff, List.map_nil, List.map_nil, fresh_iff_nodup, fresh_iff_nodup]
  constructor
  · intro h
    obtain ⟨hnames, hcodes, hknown⟩ := h
    exact ⟨hnames, hcodes, hknown⟩
  · intro h
    exact ⟨h.names, h.codes, h.known⟩

/-- The map is refused for the first row that is at fault. -/
theorem checkModes_eq_error_iff :
    checkModes resolutions [] modes = .error e ↔
      ∃ before row after, modes = before ++ row :: after ∧ RowsFit resolutions before ∧
        RowFault resolutions before row e := by
  rw [checkModes_eq_scan, scan_eq_error_iff]
  simp only [← checkModes_eq_scan, checkModes_eq_ok_iff_rowsFit, List.append_nil,
    rowFault?_reverse, rowFault?_eq_some_iff]

/-! ## The judgement -/

/-- What is wrong first, with the resolutions before the map and with the map before the
fallback. -/
inductive FirstFault (resolutions : List Resolution) (modes : List ModeRow) (fallback : String) :
    TableError → Prop where
  | resolution {before after : List Resolution} {r : Resolution}
      (hsplit : resolutions = before ++ r :: after)
      (hbefore : (before.map Resolution.name).Nodup)
      (hname : r.name ∈ before.map Resolution.name) :
      FirstFault resolutions modes fallback (.duplicateName r.name)
  | row {before after : List ModeRow} {row : ModeRow} {e : TableError}
      (hnames : (resolutions.map Resolution.name).Nodup)
      (hsplit : modes = before ++ row :: after) (hbefore : RowsFit resolutions before)
      (hrow : RowFault resolutions before row e) : FirstFault resolutions modes fallback e
  | fallback (hnames : (resolutions.map Resolution.name).Nodup)
      (hmodes : RowsFit resolutions modes) (hfallback : fallback ∉ modes.map ModeRow.name) :
      FirstFault resolutions modes fallback (.unknownName fallback)

theorem checkNames_eq_ok_iff_nodup :
    checkNames [] resolutions = .ok () ↔ (resolutions.map Resolution.name).Nodup := by
  rw [checkNames_eq_ok_iff, fresh_iff_nodup]

/-- **The error is about the first fault.** -/
theorem ofTables_eq_error_iff :
    ofTables resolutions modes fallback = .error e ↔
      FirstFault resolutions modes fallback e := by
  unfold ofTables
  constructor
  · intro h
    split at h
    next e' hnames =>
      obtain rfl := Except.error.inj h
      obtain ⟨before, r, after, hsplit, hbefore, hname, rfl⟩ := checkNames_eq_error_iff.mp hnames
      exact .resolution hsplit hbefore hname
    next hnames =>
      have hnodup := checkNames_eq_ok_iff_nodup.mp hnames
      split at h
      next e' hmodes =>
        obtain rfl := Except.error.inj h
        obtain ⟨before, row, after, hsplit, hbefore, hrow⟩ := checkModes_eq_error_iff.mp hmodes
        exact .row hnodup hsplit hbefore hrow
      next hmodes =>
        split at h
        next hnone =>
          obtain rfl := Except.error.inj h
          exact .fallback hnodup (checkModes_eq_ok_iff_rowsFit.mp hmodes)
            (rowOf?_eq_none_iff.mp hnone)
        next => exact absurd h (by simp)
  · intro h
    cases h with
    | resolution hsplit hbefore hname =>
      rw [checkNames_eq_error_iff.mpr ⟨_, _, _, hsplit, hbefore, hname, rfl⟩]
    | row hnames hsplit hbefore hrow =>
      rw [checkNames_eq_ok_iff_nodup.mpr hnames,
        checkModes_eq_error_iff.mpr ⟨_, _, _, hsplit, hbefore, hrow⟩]
    | fallback hnames hmodes hfallback =>
      rw [checkNames_eq_ok_iff_nodup.mpr hnames, checkModes_eq_ok_iff_rowsFit.mpr hmodes,
        rowOf?_eq_none_iff.mpr hfallback]

/-- **Tables are judged** by their consistency: whatever the tables and the fallback are, a catalog
is made of them exactly if no two resolutions have one name, no two rows one name or one code, every
row names a resolution, and the fallback has a row, whose code is then the one of the fallback. And
if no catalog is made, the error is about the first fault. -/
theorem ofTables_isJudged (resolutions : List Resolution) (modes : List ModeRow)
    (fallback : String) :
    ((∃ catalog, ofTables resolutions modes fallback = .ok catalog) ↔
      (resolutions.map Resolution.name).Nodup ∧ (modes.map ModeRow.name).Nodup ∧
        (modes.map ModeRow.code).Nodup ∧
        (∀ row ∈ modes, row.name ∈ resolutions.map Resolution.name) ∧
        fallback ∈ modes.map ModeRow.name) ∧
    (∀ catalog, ofTables resolutions modes fallback = .ok catalog →
      catalog.resolutions = resolutions ∧ catalog.modes = modes ∧
        ∀ code, ⟨fallback, code⟩ ∈ modes ↔ code = catalog.fallback) ∧
    ∀ e, ofTables resolutions modes fallback = .error e ↔
      FirstFault resolutions modes fallback e := by
  refine ⟨?accepted, ?made, ?refused⟩
  case accepted =>
    constructor
    · intro h
      obtain ⟨catalog, hmade⟩ := h
      obtain ⟨rfl, rfl, hconsistent, hfallback⟩ := ofTables_eq_ok_iff.mp hmade
      exact ⟨hconsistent.names, hconsistent.modeNames, hconsistent.codes, hconsistent.known,
        List.mem_map_of_mem hfallback⟩
    · intro h
      obtain ⟨hnames, hmodeNames, hcodes, hknown, hfallback⟩ := h
      obtain ⟨⟨_, code⟩, hrow, rfl⟩ := List.mem_map.mp hfallback
      exact ⟨⟨resolutions, modes, code⟩, ofTables_eq_ok_iff.mpr
        ⟨rfl, rfl, ⟨hnames, hmodeNames, hcodes, hknown⟩, hrow⟩⟩
  case made =>
    intro catalog hmade
    obtain ⟨rfl, rfl, hconsistent, hfallback⟩ := ofTables_eq_ok_iff.mp hmade
    refine ⟨rfl, rfl, ?_⟩
    intro code
    constructor
    · intro hrow
      have hcode := codeOf_of_mem hconsistent hrow
      exact hcode.symm.trans (codeOf_of_mem hconsistent hfallback)
    · intro hcode
      rw [hcode]
      exact hfallback
  case refused =>
    intro e
    exact ofTables_eq_error_iff

/-- A row whose code is taken and whose name no resolution has is refused for the code. The row after
it, whose name is taken, is not looked at any more. -/
example : ofTables Resolution.advertised [⟨"720p", 4⟩, ⟨"4320p", 4⟩, ⟨"720p", 4⟩] "4320p" =
    .error (.duplicateMode 4) := by
  decide +kernel

end VideoOutput.Mode.Catalog
