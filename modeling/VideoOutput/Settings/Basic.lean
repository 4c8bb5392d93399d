import VideoOutput.Edid.Identity
import VideoOutput.Json.Lexeme
import VideoOutput.Mode.Catalog

/-!
# Settings

What can be set: how strictly blobs are checked, which resolution stands in for an unknown name, how
many connectors of each kind there are, and how many events may wait. `Settings.check` tells which
settings make sense.

Settings make sense if there is at least one connector and the fallback is a name that the platform
has a mode for. The number of connectors is looked at first. A limit of zero for the events that may
wait is allowed, and then none ever does. Checking changes nothing, so settings that pass are the
settings that were given, and the defaults pass.

Settings come from two places, a JSON text or variables of the environment, and both ways end in the
same check. An error tells which way it came, except for those of the check itself.
-/

namespace VideoOutput

/-- The settings of the video output. -/
structure Settings where
  checksum : Edid.ChecksumPolicy := .strict
  /-- The resolution requested in place of an unknown name. -/
  fallback : String := Mode.Catalog.platformFallback
  hdmiCount : UInt8 := 1
  compositeCount : UInt8 := 1
  /-- The number of events kept before the oldest are dropped. -/
  queueLimit : Nat := 64
  deriving DecidableEq

/-- Why settings are refused. -/
inductive SettingsError where
  /-- The text of the settings cannot be read. -/
  | json (problem : Json.Problem)
  /-- A variable has no acceptable value. -/
  | variable (name value : String)
  /-- The fallback is not a resolution that can be requested. -/
  | fallback (cause : Mode.TableError)
  /-- There is no connector at all. -/
  | noConnectors
  deriving DecidableEq

/-- The wording of a settings error, causes last. -/
def SettingsError.messages : SettingsError → List String
  | .json problem => ["invalid config JSON", "json:" ++ problem.category]
  | .variable name value => ["invalid value for " ++ name ++ ": " ++ Text.quoted value]
  | .fallback cause => ["invalid fallback resolution: " ++ cause.message, cause.message]
  | .noConnectors => ["at least one video port must be configured"]

namespace Settings

/-- The mode catalog with the chosen fallback. -/
def catalog (settings : Settings) : Except SettingsError Mode.Catalog :=
  match Mode.Catalog.withFallback settings.fallback with
  | .ok catalog => .ok catalog
  | .error cause => .error (.fallback cause)

/-- Accept settings with a connector and a known fallback. -/
def check (settings : Settings) : Except SettingsError Settings :=
  if settings.hdmiCount = 0 ∧ settings.compositeCount = 0 then .error .noConnectors
  else
    match settings.catalog with
    | .error e => .error e
    | .ok _ => .ok settings

end Settings

end VideoOutput
