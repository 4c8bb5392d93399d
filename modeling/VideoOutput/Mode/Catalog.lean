import VideoOutput.Mode.Resolution
import VideoOutput.Mode.Vic

/-!
# The mode catalog

A catalog joins the named resolutions to the mode codes of the display firmware: a table of
resolutions, a one-to-one map from names to codes, and the code requested in place of an unknown
name. `Catalog.ofTables` accepts exactly the consistent tables and otherwise names the first
contradiction.

Codes outside the map are taken as video identification codes and resolved by geometry alone.

There are two ways through a catalog. From a name to a code every name gets through: one that the
map does not know is given the code of the fallback, so that a display always gets a picture, and an
entry in the log tells of it. From a code to a resolution the map is asked first. A code that has no
name there may still be a video identification code with a known geometry, and is then resolved to
the first resolution of the table with this geometry, or to none.

`accepted` goes the second way for a list of codes at once, with the map alone: a resolution is
accepted if its own code is listed. The order is that of the table and not that of the list.
-/

namespace VideoOutput.Mode

/-- A mode code of the display firmware. -/
abbrev ModeCode := UInt32

/-- One row of the map from names to mode codes. -/
structure ModeRow where
  name : String
  code : ModeCode
  deriving DecidableEq

/-- Named resolutions with their mode codes and the code used for unknown names. -/
structure Catalog where
  resolutions : List Resolution
  modes : List ModeRow
  fallback : ModeCode
  deriving DecidableEq

namespace Catalog

/-- Look for the first resolution whose name was seen before it. -/
def checkNames (seen : List String) : List Resolution → Except TableError Unit
  | [] => .ok ()
  | r :: rest =>
    if r.name ∈ seen then .error (.duplicateName r.name)
    else checkNames (r.name :: seen) rest

/-- Look for the first row of the map that repeats a name or a code or names no resolution. -/
def checkModes (resolutions : List Resolution) (seen : List ModeRow) :
    List ModeRow → Except TableError Unit
  | [] => .ok ()
  | row :: rest =>
    if seen.any fun earlier => earlier.name == row.name then .error (.duplicateName row.name)
    else if seen.any fun earlier => earlier.code == row.code then .error (.duplicateMode row.code)
    else if resolutions.any fun r => r.name == row.name then
      checkModes resolutions (row :: seen) rest
    else .error (.unknownName row.name)

/-- The row of the map for a name. -/
def rowOf? (modes : List ModeRow) (name : String) : Option ModeRow :=
  modes.find? fun row => row.name == name

/-- A catalog of consistent tables with the named fallback. -/
def ofTables (resolutions : List Resolution) (modes : List ModeRow) (fallback : String) :
    Except TableError Catalog :=
  match checkNames [] resolutions with
  | .error e => .error e
  | .ok () =>
    match checkModes resolutions [] modes with
    | .error e => .error e
    | .ok () =>
      match rowOf? modes fallback with
      | none => .error (.unknownName fallback)
      | some row => .ok ⟨resolutions, modes, row.code⟩

/-- The platform's map from resolution names to mode codes. -/
def platformModes : List ModeRow := [
  ⟨"480p", 2⟩, ⟨"576p50", 17⟩, ⟨"720p", 4⟩, ⟨"720p50", 19⟩, ⟨"1080i", 5⟩, ⟨"1080i50", 20⟩,
  ⟨"1080p24", 32⟩, ⟨"1080p25", 33⟩, ⟨"1080p30", 34⟩, ⟨"1080p50", 31⟩, ⟨"1080p60", 16⟩]

/-- The name requested in place of an unknown one, unless settings say otherwise. -/
def platformFallback : String := "720p"

/-- The platform's tables with its own fallback. -/
def platform : Catalog :=
  ⟨Resolution.advertised, platformModes, 4⟩

/-- The platform's tables with another fallback. -/
def withFallback (fallback : String) : Except TableError Catalog :=
  ofTables Resolution.advertised platformModes fallback

/-- The resolution of a name. -/
def find? (catalog : Catalog) (name : String) : Option Resolution :=
  catalog.resolutions.find? fun r => r.name == name

/-- The mode code of a name. An unknown name gets the fallback, so a sink always has a signal. -/
def codeOf (catalog : Catalog) (name : String) : ModeCode :=
  match rowOf? catalog.modes name with
  | some row => row.code
  | none => catalog.fallback

/-- The entry for a name that `codeOf` does not know. -/
def codeOfLog (catalog : Catalog) (name : String) : List Log.Entry :=
  match rowOf? catalog.modes name with
  | some _ => []
  | none =>
    [⟨.warn, "unknown resolution name, requesting fallback mode",
      [("name", .text name), ("fallback", .text (toString catalog.fallback.toNat))]⟩]

/-- The name a code is mapped from. -/
def nameOf? (catalog : Catalog) (code : ModeCode) : Option String :=
  (catalog.modes.find? fun row => row.code == code).map ModeRow.name

/-- The resolution a code is mapped from. -/
def named? (catalog : Catalog) (code : ModeCode) : Option Resolution :=
  (catalog.nameOf? code).bind catalog.find?

/-- The geometry of a code that is also a video identification code. -/
def geometryOf? (code : ModeCode) : Option Geometry :=
  if code.toNat < 256 then VicTable.reference.geometryOf? code.toUInt8 else none

/-- The first resolution with the geometry of a code. -/
def byGeometry? (catalog : Catalog) (code : ModeCode) : Option Resolution :=
  (geometryOf? code).bind fun g => catalog.resolutions.find? fun r => r.geometry == g

/-- The resolution of a code: by its name if it has one, otherwise by geometry. -/
def resolutionOf? (catalog : Catalog) (code : ModeCode) : Option Resolution :=
  match catalog.named? code with
  | some r => some r
  | none => catalog.byGeometry? code

/-- The entry for a code that `resolutionOf?` resolves by geometry. -/
def resolutionOfLog (catalog : Catalog) (code : ModeCode) : List Log.Entry :=
  match catalog.named? code with
  | some _ => []
  | none =>
    match catalog.byGeometry? code with
    | none => []
    | some r =>
      [⟨.debug, "mode resolved by pixel geometry",
        [("mode", .text (toString code.toNat)), ("name", .text r.name)]⟩]

/-- The resolutions whose code is among those of a sink, in the order of the table. -/
def accepted (catalog : Catalog) (codes : List ModeCode) : List Resolution :=
  catalog.resolutions.filter fun r =>
    match rowOf? catalog.modes r.name with
    | some row => codes.contains row.code
    | none => false

end Catalog

end VideoOutput.Mode
