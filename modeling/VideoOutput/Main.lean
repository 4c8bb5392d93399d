import Std.Time.DateTime
import VideoOutput.Cli.Run

/-!
# The program

Asks the machine for what an invocation needs, runs the invocation, and carries out its report. All
decisions are made by `Cli.runArguments`, whose two steps are taken one by one here, because only
the invocation tells which files have to be read; reading, writing and printing are all that happens
here.

The host that a command sees is filled beforehand: the variables that anything asks for, the files
that the invocation names, and the current year. A file that cannot be read is part of the host,
with the reason, and the command decides what comes of it. A report may have a file to be written.
It is written before anything is printed, and if that fails the report is one of a failure instead.
-/

namespace VideoOutput.Program

/-- The variables that the command line and the settings know. -/
def knownVariables : List String :=
  [Cli.Invocation.configVariable, Cli.Invocation.logLevelVariable, Settings.policyVariable,
    Settings.fallbackVariable, Settings.queueVariable]

/-- Look a name up in a table. -/
def find? {α : Type} (table : List (String × α)) (name : String) : Option α :=
  (table.find? fun entry => entry.1 == name).map Prod.snd

/-- The reason for a failed access to a file. -/
def reasonOf : IO.Error → String
  | .noFileOrDirectory .. => "No such file or directory (os error 2)"
  | .permissionDenied .. => "Permission denied (os error 13)"
  | e => toString e

/-- The contents of a file, or why it cannot be read. -/
def readFile (path : String) : IO (Except String (List UInt8)) := do
  try
    return .ok (← IO.FS.readBinFile path).toList
  catch e => return .error (reasonOf e)

/-- The known variables that are set. -/
def readVariables : IO (List (String × String)) :=
  knownVariables.filterMapM fun name => do
    return (← IO.getEnv name).map fun value => (name, value)

/-- The host as far as an invocation will ask about it. -/
def readHost (invocation : Cli.Invocation) (environment : String → Option String) :
    IO Cli.Host := do
  let paths := invocation.config.toList ++ invocation.command.input?.toList
  let files ← paths.mapM fun path => return (path, ← readFile path)
  let now := Std.Time.WallTime.ofSeconds (← Std.Time.Timestamp.now).toSecondsSinceUnixEpoch
  return {
    environment
    read := fun path => (find? files path).getD (.error "not read")
    currentYear := (Std.Time.PlainDate.ofWallTime now).year.toInt.toNat }

/-- Write the file of a report, if it has one. -/
def save (report : Cli.Report) : IO Cli.Report := do
  match report.saving with
  | none => return report
  | some saving =>
    try
      IO.FS.writeBinFile saving.path saving.bytes.toByteArray
      return report
    catch e => return report.savingFailed (reasonOf e)

/-- Carry out a report and answer the exit status. -/
def conclude (report : Cli.Report) : IO UInt32 := do
  let report ← save report
  IO.print report.output
  match report.failure with
  | none => return 0
  | some messages =>
    IO.eprintln ("Error: " ++ ": ".intercalate messages)
    return 1

/-- How the program is called. -/
def usage : String :=
  "usage: dsinfo [OPTIONS] <edid|modes|vic|negotiate|display|synth> ..."

/-- Run a command line and answer the exit status. -/
def run (args : List String) : IO UInt32 := do
  let environment := find? (← readVariables)
  match Cli.Invocation.ofArguments environment args with
  | .error exit =>
    match exit with
    | .rejected => IO.eprintln usage
    | .informed => IO.println usage
    return UInt32.ofNat exit.status
  | .ok invocation => conclude (invocation.run (← readHost invocation environment) Settings.parse)

end VideoOutput.Program

/-- The entry point. -/
def main (args : List String) : IO UInt32 :=
  VideoOutput.Program.run args
