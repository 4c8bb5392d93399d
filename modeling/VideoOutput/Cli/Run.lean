import VideoOutput.Cli.Invocation
import VideoOutput.Cli.Report
import VideoOutput.Controller.Request
import VideoOutput.Edid.Draft
import VideoOutput.Firmware.Simulator
import VideoOutput.Settings.Json
import VideoOutput.Settings.Variables

/-!
# Running commands

A command is run on a host, which answers what is in its variables and files and what year it is.
The report says what is printed, what is written to a file, and why the command failed if it did;
what was printed before a failure stays. Nothing here changes the host.

Two parts of the program are foreign: what parses the command line, and what reads a JSON text into
settings. Both are arguments of `runBy`, and of the functions below it that need them.
`runArguments` is the program with the parser and the reader it is run with.

Settings are looked for in the file that the invocation names, or else in the variables, and the
flag of lenient reading has the last word on the policy. A command that needs no settings fails
nevertheless if they cannot be found or do not pass the check.

The display command is a session: a controller over a simulated display that is attached, asked one
thing after the other. It goes on from each answer to the next question, and ends with the messages
of the first request that fails (`Session.andThen`).
-/

namespace VideoOutput.Cli

/-- What a command can ask of the machine it runs on. -/
structure Host where
  environment : String → Option String
  /-- The contents of a file, or why it cannot be read. -/
  read : String → Except String (List UInt8)
  currentYear : Nat

/-- A file to be written. -/
structure Saving where
  path : String
  bytes : List UInt8

/-- What a command did. -/
structure Report where
  output : String := ""
  /-- Why the command failed, the cause last. -/
  failure : Option (List String) := none
  /-- The file that has to be written before anything is printed. -/
  saving : Option Saving := none
  log : List Log.Entry := []

namespace Report

/-- A command that failed without printing anything. -/
def failed (messages : List String) (log : List Log.Entry) : Report :=
  { failure := some messages, log }

/-- The report if its file cannot be written. -/
def savingFailed (report : Report) (reason : String) : Report :=
  match report.saving with
  | some saving => failed ["failed to write " ++ saving.path, reason] report.log
  | none => report

end Report

/-- Read the blob in a file. -/
def Host.readBlob (host : Host) (file : String) : Except (List String) (List UInt8) :=
  match host.read file with
  | .ok bytes => .ok bytes
  | .error reason => .error ["failed to read EDID " ++ file, reason]

/-- The settings in a file, as a reader of JSON texts reads them. -/
def Host.settingsIn (host : Host) (read : String → Except Json.Problem Settings) (file : String) :
    Except (List String) Settings :=
  match host.read file with
  | .error reason => .error ["failed to read config " ++ file, reason]
  | .ok bytes =>
    match String.fromUTF8? bytes.toByteArray with
    | none => .error ["failed to read config " ++ file, "stream did not contain valid UTF-8"]
    | some text =>
      match Settings.ofText read text with
      | .ok settings => .ok settings
      | .error e => .error (("invalid config " ++ file) :: e.messages)

/-- The settings in the environment. -/
def Host.settingsInVariables (host : Host) : Except (List String) Settings :=
  match Settings.ofVariables host.environment with
  | .ok settings => .ok settings
  | .error e => .error ("invalid DS_* environment" :: e.messages)

/-- The settings as they are found for an invocation: in its file if it names one, otherwise in
variables. -/
def Invocation.found (invocation : Invocation) (host : Host)
    (read : String → Except Json.Problem Settings) : Except (List String) Settings :=
  match invocation.config with
  | some file => host.settingsIn read file
  | none => host.settingsInVariables

/-- The settings for an invocation. Its flag has the last word on the checksum policy. -/
def Invocation.settings (invocation : Invocation) (host : Host)
    (read : String → Except Json.Problem Settings) : Except (List String) Settings :=
  (invocation.found host read).map fun settings =>
    if invocation.isLenient then { settings with checksum := .lenient } else settings

/-- Describe the display of a blob. -/
def runEdid (host : Host) (settings : Settings) (file : String) (json : Bool) : Report :=
  match host.readBlob file with
  | .error messages => .failed messages []
  | .ok blob =>
    let log := Edid.decodeLog settings.checksum blob
    match Edid.decode settings.checksum host.currentYear blob with
    | .error e => .failed ["failed to decode " ++ file, e.message] log
    | .ok identity =>
      let output :=
        if json then (identityValue identity).write ++ "\n" else lines (describe identity)
      { output, log }

/-- List the resolutions. -/
def runModes (catalog : Mode.Catalog) (json : Bool) : Report :=
  let output :=
    if json then
      (Json.Value.list (catalog.resolutions.map (modeValue catalog))).write ++ "\n"
    else
      lines (catalog.resolutions.map (modeLine catalog) ++
        ["fallback: " ++ toString catalog.fallback.toNat])
  { output, log := catalog.resolutions.flatMap fun r => catalog.codeOfLog r.name }

/-- Explain a video identification code. -/
def runVic (vic : UInt8) : Report :=
  let table := Mode.VicTable.reference
  match table.geometryOf? vic with
  | none => .failed ["VIC " ++ toString vic.toNat ++ " is not in the table"] []
  | some g =>
    { output := lines [
        "VIC " ++ toString vic.toNat ++ ": " ++ g.text,
        "same bucket: " ++
          ", ".intercalate ((table.codesOf g).map fun code => toString code.toNat)] }

/-- The answer to a query. -/
def answerQuery (catalog : Mode.Catalog) : Query → Except String String
  | .name name =>
    .ok (name ++ " -> mode " ++ toString (catalog.codeOf name).toNat ++
      if (catalog.find? name).isSome then "" else " (fallback)")
  | .mode code =>
    let start := "mode " ++ toString code.toNat
    match catalog.nameOf? code, catalog.resolutionOf? code with
    | some name, _ => .ok (start ++ " -> " ++ name)
    | none, some r => .ok (start ++ " -> " ++ r.name ++ " (by geometry " ++ r.geometry.text ++ ")")
    | none, none => .error (start ++ " maps to no known resolution")

/-- The entries for a query. -/
def queryLog (catalog : Mode.Catalog) : Query → List Log.Entry
  | .name name => catalog.codeOfLog name
  | .mode code => catalog.resolutionOfLog code

/-- Answer a query, and list what a display with the given modes accepts if any are given. -/
def runNegotiate (catalog : Mode.Catalog) (query : Query) (supported : List Mode.ModeCode) :
    Report :=
  let log := queryLog catalog query
  match answerQuery catalog query with
  | .error message => .failed [message] log
  | .ok answer =>
    let list := match supported with
      | [] => []
      | codes => ["supported: " ++ nameList (catalog.accepted codes)]
    { output := lines (answer :: list), log }

/-- The resolution to request for a name: the fallback's if the name is unknown. -/
def resolveName (catalog : Mode.Catalog) (name : String) : Except (List String) Mode.Resolution :=
  match catalog.find? name with
  | some r => .ok r
  | none =>
    match catalog.resolutionOf? catalog.fallback with
    | some r => .ok r
    | none => .error ["fallback mode has no resolution"]

/-- The entries for a name that is to be requested. -/
def resolveNameLog (catalog : Mode.Catalog) (name : String) : List Log.Entry :=
  match catalog.find? name with
  | some _ => []
  | none =>
    ⟨.warn, "unknown resolution name, the fallback mode will be requested",
      [("name", .text name)]⟩ :: catalog.resolutionOfLog catalog.fallback

/-- A command that drives a controller over a simulated display: what it has printed and logged,
and where controller and display are. -/
structure Session where
  controller : Controller
  display : Firmware.Simulator
  output : String := ""
  log : List Log.Entry := []

namespace Session

/-- The report of a session that cannot go on. -/
def fail (session : Session) (messages : List String) : Report :=
  { output := session.output, failure := some messages, log := session.log }

/-- Print lines. -/
def print (session : Session) (texts : List String) : Session :=
  { session with output := session.output ++ lines texts }

/-- Go on with the result of a request, or end the session with its error. -/
def andThen {α : Type} (session : Session)
    (request : Controller → Firmware.Simulator → Controller.Outcome Firmware.Simulator α)
    (next : Session → α → Report) : Report :=
  let outcome := request session.controller session.display
  let session :=
    { session with
      controller := outcome.controller
      display := outcome.firmware
      log := session.log ++ outcome.log }
  match outcome.result with
  | .ok a => next session a
  | .error e => session.fail e.messages

/-- Go on with what the controller tells without asking the firmware. -/
def ask {α : Type} (session : Session) (question : Controller → Except Controller.Error α)
    (next : Session → α → Report) : Report :=
  session.andThen (fun c display => c.reading display (question c)) next

/-- Request a resolution by name, if one is given. -/
def requestName (session : Session) (h : Handle) (request : Option String)
    (next : Session → Report) : Report :=
  match request with
  | none => next session
  | some name =>
    let catalog := session.controller.catalog
    let session := { session with log := session.log ++ resolveNameLog catalog name }
    match resolveName catalog name with
    | .error messages => session.fail messages
    | .ok r => session.andThen (fun c display => c.setResolution display h r.name) fun session _ =>
      next session

/-- Tell which resolution and aspect ratio are in use, and stop. -/
def finish (session : Session) (h : Handle) : Report :=
  session.andThen (fun c display => c.resolution display h) fun session current =>
  let session := session.print ["resolution:       " ++ current.name]
  session.andThen (fun c display => c.aspect display h) fun session aspect =>
  let session := session.print ["aspect ratio:     " ++ aspect.label]
  session.andThen (fun c display => c.stop display) fun session _ =>
  { output := session.output, log := session.log }

/-- Start the controller and tell everything about the display at its first HDMI connector. -/
def run (session : Session) (currentYear : Nat) (request : Option String) : Report :=
  session.andThen (fun c display => c.start display) fun session _ =>
  session.ask (fun c => c.handle .hdmi 0) fun session h =>
  session.andThen (fun c display => c.readIdentity display h currentYear) fun session identity =>
  let session := session.print (describe identity)
  session.ask (fun c => c.isDisplayConnected h) fun session isConnected =>
  let session := session.print ["connected:        " ++ toString isConnected]
  session.requestName h request fun session => session.finish h

end Session

/-- Run a controller over a simulated display. -/
def runDisplay (host : Host) (settings : Settings) (file : String)
    (supported : List Mode.ModeCode) (request : Option String) : Report :=
  match host.readBlob file with
  | .error messages => .failed messages []
  | .ok blob =>
    let modes := match supported with
      | [] => Mode.Catalog.platformModes.map Mode.ModeRow.code
      | codes => codes
    match Controller.ofSettings 0 settings with
    | .error e => .failed e.messages []
    | .ok controller =>
      Session.run ⟨controller, .fresh blob modes true, "", []⟩ host.currentYear request

/-- Three capital letters. -/
def isManufacturer (s : String) : Bool :=
  s.toList.length == 3 && s.toList.all Char.isUpper

/-- Write the blob of a made-up display. -/
def runSynth (name file manufacturer : String) (productCode : UInt16)
    (address : Option Edid.PhysicalAddress) : Report :=
  if !isManufacturer manufacturer then
    .failed ["manufacturer must be three uppercase letters, got " ++ Text.quoted manufacturer] []
  else
    let extensions := match address with
      | some address => [Edid.Draft.Step.extension (Edid.CeaDraft.ofSteps [.hdmi address]).block]
      | none => []
    let draft := Edid.Draft.ofSteps ([.manufacturer manufacturer, .productCode productCode,
      .monitorName name] ++ extensions)
    let bytes := draft.blob
    { output := lines ["wrote " ++ toString bytes.length ++ " bytes to " ++ file]
      saving := some ⟨file, bytes⟩ }

/-- Run a command under settings. -/
def Command.run (host : Host) (settings : Settings) : Command → Report
  | .edid file json => runEdid host settings file json
  | .vic code => runVic code
  | .display file supported request => runDisplay host settings file supported request
  | .synth name file manufacturer productCode address =>
    runSynth name file manufacturer productCode address
  | .modes json =>
    match settings.catalog with
    | .error e => .failed e.messages []
    | .ok catalog => runModes catalog json
  | .negotiate query supported =>
    match settings.catalog with
    | .error e => .failed e.messages []
    | .ok catalog => runNegotiate catalog query supported

/-- Run an invocation. -/
def Invocation.run (invocation : Invocation) (host : Host)
    (read : String → Except Json.Problem Settings) : Report :=
  match invocation.settings host read with
  | .error messages => .failed messages []
  | .ok settings => invocation.command.run host settings

/-- Run a command line, with a parser of command lines and a reader of JSON texts. -/
def runBy (parse : (String → Option String) → List String → Except Exit Invocation)
    (read : String → Except Json.Problem Settings) (host : Host) (args : List String) :
    Except Exit Report :=
  match parse host.environment args with
  | .error e => .error e
  | .ok invocation => .ok (invocation.run host read)

/-- Run a command line. -/
def runArguments (host : Host) (args : List String) : Except Exit Report :=
  runBy Invocation.ofArguments Settings.parse host args

end VideoOutput.Cli
