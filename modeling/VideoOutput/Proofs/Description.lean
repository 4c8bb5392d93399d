import VideoOutput.Cli.Report

/-!
# What is printed about a display

A display is described by labelled texts, one a line, with all texts starting in the same column.
`describe` prints such lines with their blanks written out; here they are told apart from it: which
labels there are and in which order, what stands behind each, and how labels and texts make up what
is printed (`labelled`).

`IsDescription` says it of a display. Nine rows are always there, from the manufacturer to whether
the display is an HDMI display; the date of manufacture has four forms (`IsDateText`) and the
address has two, with a remark if there is a repeater. A tenth row names the resolutions that the
display accepts, separated by commas, and is there only if there are any. `isDescription_describe`
is the agreement with what is printed, for every display, and from it everything that commands print
about a display is known character by character.

The texts inside the rows are given by the functions of the core library on numbers and lists, not
by those that the commands use.
-/

namespace VideoOutput.Cli

open VideoOutput.Edid (Identity ManufactureDate PhysicalAddress)

/-! ## Labelled lines -/

theorem lines_append (front back : List String) :
    lines (front ++ back) = lines front ++ lines back := by
  unfold lines
  rw [List.map_append, String.join_append]

/-- A label with what stands between it and its text, which starts in the nineteenth column. -/
def labelColumn (label : String) : String :=
  label ++ ":" ++ String.ofList (List.replicate (17 - label.toList.length) ' ')

/-- Rows of a label and a text, each a line with its end. -/
def labelled (rows : List (String × String)) : String :=
  String.join (rows.map fun row => labelColumn row.1 ++ row.2 ++ "\n")

/-- Labelled texts are lines: the label, blanks up to the column, the text. -/
theorem labelled_eq_lines (rows : List (String × String)) :
    labelled rows = lines (rows.map fun row => labelColumn row.1 ++ row.2) := by
  rw [labelled, lines, List.map_map]
  rfl

theorem labelled_append (front back : List (String × String)) :
    labelled (front ++ back) = labelled front ++ labelled back := by
  rw [labelled_eq_lines, labelled_eq_lines, labelled_eq_lines, List.map_append, lines_append]

/-! ## The texts of a display -/

/-- The hexadecimal digits of a number, with zeros in front up to a number of digits. -/
def hexText (width n : Nat) : String :=
  String.ofList ((Nat.toDigits 16 n).leftpad width '0')

/-- The words for a year: its number, or that it is unknown and how it is stored. -/
inductive IsYearText (date : ManufactureDate) : String → Prop where
  | known {year : Nat} (h : date.year = some year) : IsYearText date (toString year)
  | future (h : date.year = none) :
    IsYearText date ("unknown (raw " ++ toString date.rawYear.toNat ++ ")")

/-- The words for a date of manufacture. -/
inductive IsDateText : Option ManufactureDate → String → Prop where
  | unknown : IsDateText none "unknown"
  | modelYear {date : ManufactureDate} {year : String} (hmodel : date.isModelYear = true)
    (hyear : IsYearText date year) : IsDateText (some date) ("model year " ++ year)
  | week {date : ManufactureDate} {year : String} {week : UInt8} (hmodel : date.isModelYear = false)
    (hweek : date.week = some week) (hyear : IsYearText date year) :
    IsDateText (some date) ("week " ++ toString week.toNat ++ ", " ++ year)
  | year {date : ManufactureDate} {year : String} (hmodel : date.isModelYear = false)
    (hweek : date.week = none) (hyear : IsYearText date year) : IsDateText (some date) year

/-- The words for the address of a display, with a remark if it is behind a repeater. -/
inductive IsAddressText : (address : Option PhysicalAddress) → (isRepeater : Bool) → String → Prop where
  | none {isRepeater : Bool} : IsAddressText none isRepeater "none"
  | sink {p : PhysicalAddress} :
    IsAddressText (some p) false (hexText 0 p.a.toNat ++ "." ++ hexText 0 p.b.toNat ++ "." ++
      hexText 0 p.c.toNat ++ "." ++ hexText 0 p.d.toNat)
  | repeater {p : PhysicalAddress} :
    IsAddressText (some p) true (hexText 0 p.a.toNat ++ "." ++ hexText 0 p.b.toNat ++ "." ++
      hexText 0 p.c.toNat ++ "." ++ hexText 0 p.d.toNat ++ " (repeater)")

/-- Names in a row, separated by commas. -/
def commaSeparated : List String → String
  | [] => ""
  | [name] => name
  | name :: next :: rest => name ++ ", " ++ commaSeparated (next :: rest)

/-- The row about what a display accepts, if it accepts anything. -/
def supportedRow : List String → List (String × String)
  | [] => []
  | names => [("supported", commaSeparated names)]

/-- The rows that describe a display that accepts resolutions with the given names. -/
inductive IsDescription (identity : Identity) (names : List String) :
    List (String × String) → Prop where
  | rows {date address : String} (hdate : IsDateText identity.manufactured date)
    (haddress : IsAddressText identity.address identity.isRepeater address) :
    IsDescription identity names ([
      ("manufacturer", identity.manufacturer),
      ("product code", "0x" ++ hexText 4 identity.productCode.toNat),
      ("serial number", "0x" ++ hexText 8 identity.serialNumber.toNat),
      ("manufactured", date),
      ("EDID version", toString identity.version.toNat ++ "." ++ toString identity.revision.toNat),
      ("extensions", toString identity.extensionCount.toNat),
      ("monitor name", identity.monitorName),
      ("physical address", address),
      ("HDMI", if identity.isHdmi then "yes" else "no")] ++ supportedRow names)

/-! ## The texts that are printed -/

/-- The year is printed, or the byte that stands for it where the year lies in the future. -/
theorem isYearText_yearText (date : ManufactureDate) : IsYearText date date.yearText := by
  obtain ⟨week, year, rawYear, isModelYear⟩ := date
  cases year with
  | none => exact .future rfl
  | some year => exact .known rfl

theorem isDateText_text (date : Option ManufactureDate) :
    IsDateText date (ManufactureDate.text date) := by
  cases date with
  | none => exact .unknown
  | some date =>
    have hyear := isYearText_yearText date
    obtain ⟨week, year, rawYear, isModelYear⟩ := date
    cases isModelYear with
    | true => exact .modelYear rfl hyear
    | false =>
      cases week with
      | none => exact .year rfl rfl hyear
      | some week => exact .week rfl rfl hyear

/-- An address is four hexadecimal digits with dots between them. -/
theorem text_eq (p : PhysicalAddress) :
    p.text = hexText 0 p.a.toNat ++ "." ++ hexText 0 p.b.toNat ++ "." ++ hexText 0 p.c.toNat ++
      "." ++ hexText 0 p.d.toNat := by
  have hdigits : ∀ n, hexText 0 n = Text.hexDigits n := fun n => by
    simp [hexText, Text.hexDigits, List.leftpad]
  simp only [PhysicalAddress.text, hdigits, List.map_cons, List.map_nil,
    String.intercalate_cons_cons, String.intercalate_singleton, String.append_assoc]

/-- Every address is printed in one of the forms, with the remark exactly for a repeater. -/
theorem isAddressText_addressText (identity : Identity) :
    IsAddressText identity.address identity.isRepeater (addressText identity) := by
  unfold addressText
  cases identity.address with
  | none => exact .none
  | some p =>
    dsimp only
    rw [text_eq]
    cases identity.isRepeater with
    | false =>
      rw [if_neg (by simp), String.append_empty]
      exact .sink
    | true =>
      rw [if_pos rfl]
      exact .repeater

/-- A row of names is the names with commas between them. -/
theorem nameList_eq (resolutions : List Mode.Resolution) :
    nameList resolutions = commaSeparated (resolutions.map Mode.Resolution.name) := by
  unfold nameList
  induction resolutions.map Mode.Resolution.name with
  | nil => rfl
  | cons name names ih =>
    cases names with
    | nil => rfl
    | cons next rest =>
      rw [commaSeparated, ← ih, String.intercalate_cons_cons]

/-- The row about what is accepted, as it is printed. -/
theorem map_supportedRow (resolutions : List Mode.Resolution) :
    (supportedRow (resolutions.map Mode.Resolution.name)).map
        (fun row => labelColumn row.1 ++ row.2) = supportedLines resolutions := by
  cases resolutions with
  | nil => rfl
  | cons r rest =>
    have hcolumn : labelColumn "supported" = "supported:        " := by decide
    show [labelColumn "supported" ++ commaSeparated ((r :: rest).map Mode.Resolution.name)] =
      ["supported:        " ++ nameList (r :: rest)]
    rw [hcolumn, nameList_eq]

/-- **What is printed about a display** is its description, whatever the display. -/
theorem isDescription_describe (identity : Identity) :
    ∃ rows, IsDescription identity (identity.resolutions.map Mode.Resolution.name) rows ∧
      lines (describe identity) = labelled rows := by
  refine ⟨_, .rows (isDateText_text identity.manufactured) (isAddressText_addressText identity), ?_⟩
  have hcolumns : ["manufacturer", "product code", "serial number", "manufactured", "EDID version",
      "extensions", "monitor name", "physical address", "HDMI"].map labelColumn =
      ["manufacturer:     ", "product code:     ", "serial number:    ", "manufactured:     ",
        "EDID version:     ", "extensions:       ", "monitor name:     ", "physical address: ",
        "HDMI:             "] := by decide
  simp only [List.map_cons, List.map_nil, List.cons.injEq, and_true] at hcolumns
  rw [labelled_eq_lines, List.map_append, map_supportedRow]
  simp only [List.map_cons, List.map_nil, hcolumns]
  simp only [describe, Text.hexLiteral, Text.hexPadded, hexText, String.append_assoc]

end VideoOutput.Cli
