import VideoOutput.Settings.Basic
import VideoOutput.Text.Blank
import VideoOutput.Text.Number

/-!
# Settings from variables

Three variables of the environment override the defaults: the checksum policy in letters of either
case, the fallback resolution, and the number of events that may wait. Blanks around a value do not
count. The policy is judged before the number and the number before the fallback.

The environment is given as a function from names to values, so that settings can be read from any.
A variable that is not set leaves its default; one that is set to nothing is set, and nothing is
neither a policy nor a number nor the name of a mode. The fallback is not judged where it is read
but with all other settings, by the check that settings from a text go through as well. So of a bad
policy or number the variable is named, and of a bad fallback the resolution.
-/

namespace VideoOutput.Settings

/-- The variable of the checksum policy. -/
def policyVariable : String := "DS_CHECKSUM_POLICY"

/-- The variable of the fallback resolution. -/
def fallbackVariable : String := "DS_FALLBACK_RESOLUTION"

/-- The variable of the queue limit. -/
def queueVariable : String := "DS_EVENT_QUEUE_LEN"

/-- The greatest queue limit that can be set. -/
def greatestQueueLimit : Nat := UInt64.size - 1

/-- Read a checksum policy, ignoring case and the blanks around it. -/
def policyOf? (value : String) : Option Edid.ChecksumPolicy :=
  let word := (Text.trimChars value.toList).map Char.toLower
  if word = "strict".toList then some .strict
  else if word = "lenient".toList then some .lenient
  else none

/-- Read a queue limit, ignoring the blanks around it. -/
def queueLimitOf? (value : String) : Option Nat :=
  (Text.readNumber 10 greatestQueueLimit (Text.trimChars value.toList)).toOption

/-- Override a setting by a variable, if the variable is there. -/
def override {α : Type} (lookup : String → Option String) (name : String) (read : String → Option α)
    (default : α) : Except SettingsError α :=
  match lookup name with
  | none => .ok default
  | some value =>
    match read value with
    | some a => .ok a
    | none => .error (.variable name value)

/-- The defaults, overridden by variables. -/
def ofVariables (lookup : String → Option String) : Except SettingsError Settings := do
  let settings : Settings := {}
  let checksum ← override lookup policyVariable policyOf? settings.checksum
  let queueLimit ← override lookup queueVariable queueLimitOf? settings.queueLimit
  let fallback ← override lookup fallbackVariable (fun value => some (Text.trim value))
    settings.fallback
  check { settings with checksum, queueLimit, fallback }

end VideoOutput.Settings
