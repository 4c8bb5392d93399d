import VideoOutput.Cli.Command
import VideoOutput.Text.Number

/-!
# Options and their values

Which options there are, where they may stand, and what their values must look like. `Given`
collects the values of one level of a command line. An option may be given once per level, except
that lists add up.

Three options may stand on both levels, before the command and behind it; the others stand behind
the command they belong to. A value is judged when it is put into `Given`: a path must not be empty,
a number must be within the limit of its type, an address must be one. Numbers may have a sign. A
minus is harmless before zero only, and a plus sign and leading zeros are harmless always.

`Given` knows values and not words: how the words of a command line are taken for options and values
is the matter of the parser, and any parser that collects the same values comes to the same command.
Which values a command needs is said last (`command?`). The query of a name and the query of a code
exclude each other, and one of them has to be there.
-/

namespace VideoOutput.Cli

/-- An option, by its long name. -/
inductive Opt where
  | config
  | logLevel
  | lenient
  | json
  | name
  | mode
  | supported
  | edid
  | set
  | out
  | manufacturer
  | productCode
  | physicalAddress
  deriving DecidableEq

namespace Opt

/-- The word behind the two dashes. -/
def text : Opt → String
  | config => "config"
  | logLevel => "log-level"
  | lenient => "lenient"
  | json => "json"
  | name => "name"
  | mode => "mode"
  | supported => "supported"
  | edid => "edid"
  | set => "set"
  | out => "out"
  | manufacturer => "manufacturer"
  | productCode => "product-code"
  | physicalAddress => "physical-address"

/-- The option takes no value. -/
def isFlag : Opt → Bool
  | lenient => true
  | json => true
  | _ => false

/-- The options that may stand before the command and behind it. -/
def everywhere : List Opt :=
  [config, logLevel, lenient]

end Opt

/-- The options that may stand behind a command. -/
def CommandName.options : CommandName → List Opt
  | edid => [.json] ++ Opt.everywhere
  | modes => [.json] ++ Opt.everywhere
  | vic => Opt.everywhere
  | negotiate => [.name, .mode, .supported] ++ Opt.everywhere
  | display => [.edid, .supported, .set] ++ Opt.everywhere
  | synth => [.name, .out, .manufacturer, .productCode, .physicalAddress] ++ Opt.everywhere

/-- Read a decimal number up to `limit`, with a sign. A minus is harmless before zero only. -/
def readInteger? (limit : Nat) (s : String) : Option Nat :=
  match s.toList with
  | ['-'] => none
  | '-' :: digits => (Text.readDigits 10 0 0 digits).toOption
  | cs => (Text.readNumber 10 limit cs).toOption

/-- Read a list of mode codes, separated by commas. -/
def readCodes? (s : String) : Option (List Mode.ModeCode) :=
  (s.toList.splitOn ',').mapM fun part =>
    (readInteger? 4294967295 (String.ofList part)).map UInt32.ofNat

/-- A path is not empty. -/
def readPath? (s : String) : Option String :=
  if s = "" then none else some s

/-- Store a value that may be given once. -/
def once {α : Type} : Option α → Option α → Option (Option α)
  | none, some value => some (some value)
  | _, _ => none

/-- Raise a flag that may be given once. -/
def raise : Bool → Option Bool
  | false => some true
  | true => none

/-- The values given on one level of a command line. -/
structure Given where
  config : Option String := none
  logLevel : Option String := none
  lenient : Bool := false
  json : Bool := false
  /-- The argument without a name, if it is a file. -/
  file : Option String := none
  /-- The argument without a name, if it is a video identification code. -/
  vic : Option UInt8 := none
  name : Option String := none
  mode : Option Mode.ModeCode := none
  supported : List Mode.ModeCode := []
  edid : Option String := none
  set : Option String := none
  out : Option String := none
  manufacturer : Option String := none
  productCode : Option UInt16 := none
  address : Option Edid.PhysicalAddress := none
  deriving DecidableEq

namespace Given

/-- Take in an option with its value, unless the value is bad or the option was given before. -/
def put (given : Given) (value : String) : Opt → Option Given
  | .config => (once given.config (readPath? value)).map fun config => { given with config }
  | .logLevel => (once given.logLevel (some value)).map fun logLevel => { given with logLevel }
  | .lenient => (raise given.lenient).map fun lenient => { given with lenient }
  | .json => (raise given.json).map fun json => { given with json }
  | .name => (once given.name (some value)).map fun name => { given with name }
  | .mode =>
    (once given.mode ((readInteger? 4294967295 value).map UInt32.ofNat)).map fun mode =>
      { given with mode }
  | .supported =>
    (readCodes? value).map fun codes => { given with supported := given.supported ++ codes }
  | .edid => (once given.edid (readPath? value)).map fun edid => { given with edid }
  | .set => (once given.set (some value)).map fun set => { given with set }
  | .out => (once given.out (readPath? value)).map fun out => { given with out }
  | .manufacturer =>
    (once given.manufacturer (some value)).map fun manufacturer => { given with manufacturer }
  | .productCode =>
    (once given.productCode ((readInteger? 65535 value).map UInt16.ofNat)).map fun productCode =>
      { given with productCode }
  | .physicalAddress =>
    (once given.address (Edid.PhysicalAddress.ofText value).toOption).map fun address =>
      { given with address }

/-- Take in an argument without a name. -/
def putArgument (given : Given) (value : String) : CommandName → Option Given
  | .edid => (once given.file (readPath? value)).map fun file => { given with file }
  | .vic =>
    (once given.vic ((readInteger? 255 value).map UInt8.ofNat)).map fun vic => { given with vic }
  | _ => none

/-- The query in the values, if there is exactly one. -/
def query? (given : Given) : Option Query :=
  match given.name, given.mode with
  | some name, none => some (.name name)
  | none, some code => some (.mode code)
  | _, _ => none

/-- The command that the values make, if none is missing. -/
def command? (given : Given) : CommandName → Option Command
  | .edid => given.file.map fun file => .edid file given.json
  | .modes => some (.modes given.json)
  | .vic => given.vic.map Command.vic
  | .negotiate => given.query?.map fun query => .negotiate query given.supported
  | .display => given.edid.map fun file => .display file given.supported given.set
  | .synth =>
    match given.name, given.out with
    | some name, some out =>
      some (.synth name out (given.manufacturer.getD "RPI") (given.productCode.getD 0)
        given.address)
    | _, _ => none

end Given

end VideoOutput.Cli
