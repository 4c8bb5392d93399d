import VideoOutput.Log

/-!
# Dates of manufacture

Two bytes tell when a display was made: a week and a year counted from 1990. Week zero is
unspecified, week 255 marks a model year, and the other weeks above 54 make the date invalid. A year
that has not come yet is unspecified.

Whether a year has come depends on the year in which the blob is read, so that is an argument, and
with it the date is a function of the two bytes. The year byte is kept beside the year: of a year
that is unspecified it is the only thing known, and it is what a description shows then. An invalid
date is left out as a whole and the blob is read all the same; only the log has an entry about it.
-/

namespace VideoOutput.Edid

/-- When a display was made. -/
structure ManufactureDate where
  /-- The week, from 1 to 54. -/
  week : Option UInt8
  /-- The calendar year, unless it lies in the future. -/
  year : Option Nat
  /-- The year byte as stored. -/
  rawYear : UInt8
  /-- The year is a model year. -/
  isModelYear : Bool
  deriving DecidableEq

namespace ManufactureDate

/-- The week byte makes the date invalid. -/
def isInvalidWeek (week : UInt8) : Bool :=
  55 ≤ week && week ≠ 255

/-- The date in the two bytes, as seen in `currentYear`. -/
def ofBytes? (week rawYear : UInt8) (currentYear : Nat) : Option ManufactureDate :=
  if isInvalidWeek week then none
  else
    let year := 1990 + rawYear.toNat
    some {
      week := if week = 0 ∨ week = 255 then none else some week
      year := if year ≤ currentYear then some year else none
      rawYear
      isModelYear := week = 255 }

/-- The entry for a week that makes the date invalid. -/
def ofBytesLog (week : UInt8) : List Log.Entry :=
  if isInvalidWeek week then
    [⟨.debug, "ignoring out of range manufacture week", [("week", .number week.toNat)]⟩]
  else []

/-- The year in words. Of a year that lies in the future the byte is given. -/
def yearText (date : ManufactureDate) : String :=
  match date.year with
  | some year => toString year
  | none => "unknown (raw " ++ toString date.rawYear.toNat ++ ")"

/-- The date in words. -/
def text : Option ManufactureDate → String
  | none => "unknown"
  | some date =>
    match date.isModelYear, date.week with
    | true, _ => "model year " ++ date.yearText
    | false, some week => "week " ++ toString week.toNat ++ ", " ++ date.yearText
    | false, none => date.yearText

end ManufactureDate

end VideoOutput.Edid
