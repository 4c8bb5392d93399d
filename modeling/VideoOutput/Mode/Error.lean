import VideoOutput.Mode.Geometry
import VideoOutput.Text.Quoted

/-!
# Inconsistent tables

The ways in which a table of identification codes or of mode codes can contradict itself: a name or
a mode code that occurs twice, a name in the map that is no resolution's, a fallback that the map
does not know, an identification code with two geometries. Each error carries the entry that is at
fault, and of a code with two geometries also both of them.
-/

namespace VideoOutput.Mode

/-- A contradiction found while a table is loaded. -/
inductive TableError where
  /-- One identification code stands for two geometries. -/
  | conflictingVic (vic : UInt8) (first second : Geometry)
  /-- A resolution name occurs twice. -/
  | duplicateName (name : String)
  /-- Two names share a mode code. -/
  | duplicateMode (code : UInt32)
  /-- A name has no resolution behind it. -/
  | unknownName (name : String)
  deriving DecidableEq

/-- The wording of a table error. -/
def TableError.message : TableError → String
  | .conflictingVic vic first second =>
    "VIC " ++ toString vic.toNat ++ " maps to both " ++ first.label ++ " and " ++ second.label
  | .duplicateName name =>
    "resolution name " ++ Text.quoted name ++ " appears more than once"
  | .duplicateMode code =>
    "vendor mode " ++ toString code.toNat ++ " is mapped by more than one resolution name"
  | .unknownName name =>
    "resolution name " ++ Text.quoted name ++ " is not in the resolution table"

end VideoOutput.Mode
