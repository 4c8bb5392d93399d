import VideoOutput.Edid.Error
import VideoOutput.Firmware.Basic

/-!
# Refused requests

Why the controller refuses a request. That a connector lacks an ability is an ordinary answer and no
fault.

The errors are of three sorts. Some are about the caller: a controller that is active already or not
active, a stale handle, a connector that is not there, an ability that is lacking. Some are handed
on from below, with their cause: a failure of the firmware, a blob that cannot be read. And one is
about the catalog, a mode in use that has no resolution. An error carries what its wording needs,
and the wording names the cause last, so that a message about a failed request ends with what
failed.
-/

namespace VideoOutput.Controller

/-- What composite connectors cannot do, and what no connector can. -/
inductive Ability where
  | detectDisplay
  | tellResolution
  | changeResolution
  | readIdentity
  | listResolutions
  | tellAspect
  | tellProtection
  /-- Content protection is a matter of the firmware alone. -/
  | controlProtection
  deriving DecidableEq

/-- The wording of an ability in a refusal. -/
def Ability.text : Ability → String
  | .detectDisplay => "connection detection on composite output"
  | .tellResolution => "resolution query on composite output"
  | .changeResolution => "resolution change on composite output"
  | .readIdentity => "EDID on composite output"
  | .listResolutions => "resolution list on composite output"
  | .tellAspect => "aspect ratio on composite output"
  | .tellProtection => "HDCP on composite output"
  | .controlProtection => "HDCP control"

/-- Why a request is refused. -/
inductive Error where
  | notActive
  | alreadyActive
  /-- The handle is from another generation. -/
  | staleHandle
  /-- There is no such connector. -/
  | noConnector
  | unsupported (ability : Ability)
  /-- A call to the firmware failed. -/
  | firmware (failure : Firmware.Failure)
  /-- The firmware reports a mode without a resolution. -/
  | unmappedMode (code : Mode.ModeCode)
  /-- The identification data cannot be read. -/
  | unreadable (cause : Edid.ReadError)
  deriving DecidableEq

/-- The failure by which the controller reports a mode without a resolution. -/
def unmappedFailure (code : Mode.ModeCode) : Firmware.Failure :=
  ⟨"display reports unmapped mode " ++ toString code.toNat⟩

/-- The wording of an error, causes last. -/
def Error.messages : Error → List String
  | .notActive => ["video ports are not initialized"]
  | .alreadyActive => ["video ports are already initialized"]
  | .staleHandle => ["invalid parameter: stale port handle"]
  | .noConnector => ["invalid parameter: no such video port"]
  | .unsupported ability => ["operation not supported: " ++ ability.text]
  | .firmware failure => ["general failure: " ++ failure.message, failure.message]
  | .unmappedMode code =>
    ["general failure: " ++ (unmappedFailure code).message, (unmappedFailure code).message]
  | .unreadable cause => ["EDID: " ++ cause.message, cause.message]

end VideoOutput.Controller
