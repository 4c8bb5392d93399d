import VideoOutput.Log
import VideoOutput.Mode.Error

/-!
# Video identification codes

A table from identification codes to geometries. Rows that repeat a code must agree with its first
row: the strict constructor refuses a row that does not, the lossy one drops it. Both keep the first
row of every code, in order of declaration.

The reference table is many-to-one and partial: codes without one of the six geometries are absent.
Its order matters, because `codeOf?` answers with the first code declared for a geometry.

The two constructors are two recursions with what was kept so far, and not one with a flag, because
they answer differently: the strict one has an error that tells the first contradiction with both
geometries, the lossy one always has a table and leaves the contradictions to the log. A row that
repeats an earlier one without contradicting it is dropped by both and mentioned by neither. The
reference table is made by the lossy one, so that it is there without a proof; the theory shows that
its rows declare every code once, so nothing is dropped.
-/

namespace VideoOutput.Mode

/-- One row: an identification code and the geometry it stands for. -/
structure VicRow where
  vic : UInt8
  geometry : Geometry
  deriving DecidableEq

/-- A table of identification codes. Its constructors keep one row for every code. -/
structure VicTable where
  rows : List VicRow
  deriving DecidableEq

namespace VicTable

/-- The row kept for a code. -/
def rowOf? (rows : List VicRow) (vic : UInt8) : Option VicRow :=
  rows.find? fun row => row.vic == vic

/-- Add rows to those kept so far, refusing the first one that contradicts a kept row. -/
def addStrict (kept : List VicRow) : List VicRow → Except TableError (List VicRow)
  | [] => .ok kept
  | row :: rest =>
    match rowOf? kept row.vic with
    | none => addStrict (kept ++ [row]) rest
    | some first =>
      if first.geometry = row.geometry then addStrict kept rest
      else .error (.conflictingVic row.vic first.geometry row.geometry)

/-- Add rows to those kept so far, passing over every repetition of a code. -/
def addLossy (kept : List VicRow) : List VicRow → List VicRow
  | [] => kept
  | row :: rest =>
    match rowOf? kept row.vic with
    | none => addLossy (kept ++ [row]) rest
    | some _ => addLossy kept rest

/-- A table of the rows, unless two of them contradict each other. -/
def ofRows (rows : List VicRow) : Except TableError VicTable :=
  (addStrict [] rows).map VicTable.mk

/-- A table of the rows in which the first declaration of a code wins. -/
def ofRowsLossy (rows : List VicRow) : VicTable :=
  ⟨addLossy [] rows⟩

/-- The entry for a row dropped in favour of an earlier declaration. -/
def droppedEntry (first row : VicRow) : Log.Entry :=
  ⟨.warn, "ignoring conflicting VIC table entry",
    [("vic", .number row.vic.toNat), ("kept", .text first.geometry.label),
      ("dropped", .text row.geometry.label)]⟩

/-- The entries for the contradicting rows that `addLossy` passes over. -/
def addLossyLog (kept : List VicRow) : List VicRow → List Log.Entry
  | [] => []
  | row :: rest =>
    match rowOf? kept row.vic with
    | none => addLossyLog (kept ++ [row]) rest
    | some first =>
      if first.geometry = row.geometry then addLossyLog kept rest
      else droppedEntry first row :: addLossyLog kept rest

/-- The entries for the rows that `ofRowsLossy` drops although they say something new. -/
def ofRowsLossyLog (rows : List VicRow) : List Log.Entry :=
  addLossyLog [] rows

/-- The geometry a code stands for. -/
def geometryOf? (table : VicTable) (vic : UInt8) : Option Geometry :=
  (rowOf? table.rows vic).map VicRow.geometry

/-- The first code declared for a geometry. Other codes of the geometry differ in rate or scan. -/
def codeOf? (table : VicTable) (g : Geometry) : Option UInt8 :=
  (table.rows.find? fun row => row.geometry == g).map VicRow.vic

/-- Every code of a geometry, in order of declaration. -/
def codesOf (table : VicTable) (g : Geometry) : List UInt8 :=
  (table.rows.filter fun row => row.geometry == g).map VicRow.vic

/-- The identification codes with one of the known geometries, in order of declaration. -/
def declared : List VicRow := [
  ⟨2, .sd480⟩, ⟨3, .sd480⟩, ⟨4, .hd720⟩, ⟨5, .hd1080⟩, ⟨6, .sd480⟩, ⟨7, .sd480⟩, ⟨8, .sd480⟩,
  ⟨9, .sd480⟩, ⟨10, .sd480⟩, ⟨11, .sd480⟩, ⟨12, .sd480⟩, ⟨13, .sd480⟩, ⟨14, .sd480⟩,
  ⟨15, .sd480⟩, ⟨16, .hd1080⟩, ⟨17, .sd576⟩, ⟨18, .sd576⟩, ⟨19, .hd720⟩, ⟨20, .hd1080⟩,
  ⟨21, .sd576⟩, ⟨22, .sd576⟩, ⟨23, .sd576⟩, ⟨24, .sd576⟩, ⟨25, .sd576⟩, ⟨26, .sd576⟩,
  ⟨27, .sd576⟩, ⟨28, .sd576⟩, ⟨29, .sd576⟩, ⟨30, .sd576⟩, ⟨31, .hd1080⟩, ⟨32, .hd1080⟩,
  ⟨33, .hd1080⟩, ⟨34, .hd1080⟩, ⟨35, .sd480⟩, ⟨36, .sd480⟩, ⟨37, .sd576⟩, ⟨38, .sd576⟩,
  ⟨39, .hd1080⟩, ⟨40, .hd1080⟩, ⟨41, .hd720⟩, ⟨42, .sd576⟩, ⟨43, .sd576⟩, ⟨44, .sd576⟩,
  ⟨45, .sd576⟩, ⟨46, .hd1080⟩, ⟨47, .hd720⟩, ⟨48, .sd480⟩, ⟨49, .sd480⟩, ⟨50, .sd480⟩,
  ⟨51, .sd480⟩, ⟨52, .sd576⟩, ⟨53, .sd576⟩, ⟨54, .sd576⟩, ⟨55, .sd576⟩, ⟨56, .sd480⟩,
  ⟨57, .sd480⟩, ⟨58, .sd480⟩, ⟨59, .sd480⟩, ⟨60, .hd720⟩, ⟨61, .hd720⟩, ⟨62, .hd720⟩,
  ⟨63, .hd1080⟩, ⟨64, .hd1080⟩, ⟨65, .hd720⟩, ⟨66, .hd720⟩, ⟨67, .hd720⟩, ⟨68, .hd720⟩,
  ⟨69, .hd720⟩, ⟨70, .hd720⟩, ⟨71, .hd720⟩, ⟨72, .hd1080⟩, ⟨73, .hd1080⟩, ⟨74, .hd1080⟩,
  ⟨75, .hd1080⟩, ⟨76, .hd1080⟩, ⟨77, .hd1080⟩, ⟨78, .hd1080⟩, ⟨93, .uhd2160⟩, ⟨94, .uhd2160⟩,
  ⟨95, .uhd2160⟩, ⟨96, .uhd2160⟩, ⟨97, .uhd2160⟩, ⟨98, .dci2160⟩, ⟨99, .dci2160⟩,
  ⟨100, .dci2160⟩, ⟨101, .dci2160⟩, ⟨102, .dci2160⟩]

/-- The reference table. -/
def reference : VicTable :=
  ofRowsLossy declared

end VicTable

end VideoOutput.Mode
