import VideoOutput.Edid.Address
import VideoOutput.Mode.Catalog

/-!
# Commands

What can be asked on the command line, with the values that belong to each command.

A command is complete: it carries all the values it runs with, defaults included, and whether a
value is acceptable was decided when the command was made. What depends on the machine is not in it.
The names of files are, their contents are not; the settings are found by the invocation that the
command belongs to. There are six commands and each is called by one word (`CommandName.text`).
-/

namespace VideoOutput.Cli

/-- A question to the mode catalog. -/
inductive Query where
  /-- The mode code of a name. -/
  | name (name : String)
  /-- The resolution of a mode code. -/
  | mode (code : Mode.ModeCode)
  deriving DecidableEq

/-- A command with its values. -/
inductive Command where
  /-- Describe the display of a blob. -/
  | edid (file : String) (json : Bool)
  /-- List the resolutions with their mode codes. -/
  | modes (json : Bool)
  /-- Explain a video identification code. -/
  | vic (code : UInt8)
  /-- Answer a query, and list which resolutions a display with some modes accepts. -/
  | negotiate (query : Query) (supported : List Mode.ModeCode)
  /-- Run a controller over a simulated display. -/
  | display (file : String) (supported : List Mode.ModeCode) (request : Option String)
  /-- Write the blob of a made-up display to a file. -/
  | synth (name file manufacturer : String) (productCode : UInt16)
      (address : Option Edid.PhysicalAddress)
  deriving DecidableEq

/-- The file that a command reads. -/
def Command.input? : Command → Option String
  | .edid file _ => some file
  | .display file _ _ => some file
  | _ => none

/-- The name of a command. -/
inductive CommandName where
  | edid
  | modes
  | vic
  | negotiate
  | display
  | synth
  deriving DecidableEq

namespace CommandName

/-- Every command. -/
def all : List CommandName :=
  [edid, modes, vic, negotiate, display, synth]

/-- The word that calls the command. -/
def text : CommandName → String
  | edid => "edid"
  | modes => "modes"
  | vic => "vic"
  | negotiate => "negotiate"
  | display => "display"
  | synth => "synth"

/-- The command that a word calls. -/
def ofText? (word : String) : Option CommandName :=
  all.find? fun name => name.text == word

end CommandName

end VideoOutput.Cli
