import VideoOutput.Cli.Option

/-!
# Reading a command line

A command line is read word by word. Options before the command belong to the first level, options
behind it to the second; those of `Opt.everywhere` may stand on both, and the second level wins. The
value of an option follows behind an equals sign or as the next word; a next word that looks like an
option is no value. Behind a word of two dashes all words are arguments.

A value behind an equals sign is judged at once. One that is a word of its own is judged when its
level goes on, or when everything is read; so a bad value just before the command is found only
behind the command's own words.

Reading stops at the first problem. A request for help or for the version ends it as well, unless a
problem was found before.

This is the parser that the program is run with. Parsing a command line is the business of a foreign
library, so nothing that is said about the flag of lenient reading rests on this module: it is said
of every parser that does what is documented (`Proofs.CommandLine`), and that this one does is a
theorem (`Proofs.LineReading`).
-/

namespace VideoOutput.Cli

/-- Why there is nothing to run. -/
inductive Exit where
  /-- The command line is not acceptable. -/
  | rejected
  /-- Help or the version was asked for. -/
  | informed
  deriving DecidableEq

/-- The status with which the program ends. -/
def Exit.status : Exit → Nat
  | .rejected => 2
  | .informed => 0

/-- What kind of word this is. -/
inductive Token where
  /-- Two dashes. -/
  | terminator
  /-- An option by its long name, with the value behind an equals sign. -/
  | long (name : String) (value : Option String)
  /-- Options by letters, of which the first counts. -/
  | short (letter : Char)
  /-- Anything else. -/
  | word
  deriving DecidableEq

/-- The kind of a word. -/
def Token.ofString (s : String) : Token :=
  match s.toList with
  | ['-', '-'] => .terminator
  | '-' :: '-' :: cs =>
    let name := String.ofList (cs.takeWhile (· != '='))
    match cs.dropWhile (· != '=') with
    | [] => .long name none
    | _ :: value => .long name (some (String.ofList value))
  | '-' :: c :: _ => .short c
  | _ => .word

/-- How far the reading has come. -/
inductive Phase where
  /-- Before the command. -/
  | root
  /-- Behind a command. -/
  | command (name : CommandName)
  /-- Behind a request for help, with or without a topic. -/
  | help (hasTopic : Bool)
  deriving DecidableEq

/-- One level of a command line under reading. -/
structure Level where
  given : Given := {}
  /-- An option that is not judged yet, with its value unless that comes next. -/
  pending : Option (Opt × Option String) := none
  deriving DecidableEq

namespace Level

/-- The values after the pending option is judged. -/
def settle (level : Level) : Option Given :=
  match level.pending with
  | none => some level.given
  | some (_, none) => none
  | some (o, some value) => level.given.put value o

/-- The option whose value comes next. -/
def awaited? (level : Level) : Option Opt :=
  match level.pending with
  | some (o, none) => some o
  | _ => none

/-- Take in an option whose value comes next. -/
def await (level : Level) (o : Opt) : Option Level :=
  level.settle.map fun given => { given, pending := some (o, none) }

/-- Take in an option with its value. -/
def put (level : Level) (o : Opt) (value : String) : Option Level :=
  (level.settle.bind fun given => given.put value o).map fun given => { given }

/-- Take in an argument without a name. -/
def putArgument (level : Level) (name : CommandName) (value : String) : Option Level :=
  (level.settle.bind fun given => given.putArgument value name).map fun given => { given }

end Level

/-- A command line under reading. -/
structure Scan where
  /-- What was given before the command. -/
  first : Level := {}
  phase : Phase := .root
  /-- What was given behind the command. -/
  second : Level := {}
  /-- Only arguments follow. -/
  isTrailing : Bool := false
  deriving DecidableEq

namespace Scan

/-- The options that may stand here. -/
def options (scan : Scan) : List Opt :=
  match scan.phase with
  | .command name => name.options
  | _ => Opt.everywhere

/-- The level that is being read. -/
def level (scan : Scan) : Level :=
  match scan.phase with
  | .command _ => scan.second
  | _ => scan.first

/-- The reading with another state of the level that is being read. -/
def setLevel (scan : Scan) (level : Level) : Scan :=
  match scan.phase with
  | .command _ => { scan with second := level }
  | _ => { scan with first := level }

/-- Go on with another state of the level, unless there is a problem. -/
def withLevel (scan : Scan) : Option Level → Except Exit Scan
  | none => .error .rejected
  | some level => .ok (scan.setLevel level)

/-- The end of the reading at a request for help or for the version. -/
def inform (scan : Scan) : Exit :=
  if scan.level.settle.isSome then .informed else .rejected

/-- Take in an option by its long name. -/
def long (scan : Scan) (name : String) (value : Option String) : Except Exit Scan :=
  if name = "help" ∨ (name = "version" ∧ scan.phase = .root) then
    .error (if value.isNone then scan.inform else .rejected)
  else
    match scan.options.find? fun o => o.text == name, value with
    | none, _ => .error .rejected
    | some o, none => scan.withLevel (if o.isFlag then scan.level.put o "" else scan.level.await o)
    | some o, some value =>
      if o.isFlag then .error .rejected else scan.withLevel (scan.level.put o value)

/-- Take in an option by its letter. Only help and the version have one. -/
def short (scan : Scan) (letter : Char) : Except Exit Scan :=
  if letter = 'h' ∨ (letter = 'V' ∧ scan.phase = .root) then .error scan.inform
  else .error .rejected

/-- Take in a word that is no option: the command, or an argument. -/
def word (scan : Scan) (s : String) : Except Exit Scan :=
  match scan.phase with
  | .root =>
    if scan.isTrailing then .error .rejected
    else if s = "help" then .ok { scan with phase := .help false }
    else
      match CommandName.ofText? s with
      | some name => .ok { scan with phase := .command name }
      | none => .error .rejected
  | .command name => scan.withLevel (scan.level.putArgument name s)
  | .help hasTopic =>
    if !hasTopic && (s == "help" || (CommandName.ofText? s).isSome) then
      .ok { scan with phase := .help true }
    else .error .rejected

/-- The phase takes every word as it is. -/
def isVerbatim (scan : Scan) : Bool :=
  match scan.phase with
  | .help _ => true
  | _ => scan.isTrailing

/-- Take in the next word. -/
def step (scan : Scan) (s : String) : Except Exit Scan :=
  match scan.level.awaited? with
  | some o =>
    if Token.ofString s = .word then
      scan.withLevel (some { scan.level with pending := some (o, some s) })
    else .error .rejected
  | none =>
    if scan.isVerbatim then scan.word s
    else
      match Token.ofString s with
      | .terminator => .ok { scan with isTrailing := true }
      | .long name value => scan.long name value
      | .short letter => scan.short letter
      | .word => scan.word s

/-- Take in all words. -/
def run (args : List String) : Except Exit Scan :=
  args.foldlM step {}

end Scan

/-- A command with the options around it. -/
structure Invocation where
  /-- The file with the settings. -/
  config : Option String
  logLevel : String
  /-- Read blobs leniently, whatever the settings say. -/
  isLenient : Bool
  command : Command
  deriving DecidableEq

namespace Invocation

/-- The variable that names the file with the settings. -/
def configVariable : String := "DS_CONFIG"

/-- The variable of the log level. -/
def logLevelVariable : String := "DS_LOG_LEVEL"

/-- The file with the settings, from what is given on both levels. A variable stands in for the option
on every level where the option is not given, and if it is looked at, then it must name a file. -/
def configOf (environment : String → Option String) (first second : Option String) :
    Option (Option String) :=
  let config? := environment configVariable
  if (first.isNone || second.isNone) && config? == some "" then none
  else some (second <|> first <|> config?)

/-- The log level, from what is given on both levels. -/
def logLevelOf (environment : String → Option String) (first second : Option String) : String :=
  (second <|> first <|> environment logLevelVariable).getD "info"

/-- The invocation that a command and the values of both levels make. -/
def ofLevels (environment : String → Option String) (name : CommandName) (first second : Given) :
    Except Exit Invocation :=
  match second.command? name, configOf environment first.config second.config with
  | some command, some config =>
    .ok {
      config
      logLevel := logLevelOf environment first.logLevel second.logLevel
      isLenient := first.lenient || second.lenient
      command }
  | _, _ => .error .rejected

/-- The invocation that a command line describes. -/
def ofScan (environment : String → Option String) (scan : Scan) : Except Exit Invocation :=
  match scan.phase with
  | .root => .error .rejected
  | .help _ => .error .informed
  | .command name =>
    match scan.first.settle, scan.second.settle with
    | some first, some second => ofLevels environment name first second
    | _, _ => .error .rejected

/-- Read a command line. -/
def ofArguments (environment : String → Option String) (args : List String) :
    Except Exit Invocation :=
  match Scan.run args with
  | .error e => .error e
  | .ok scan => ofScan environment scan

end Invocation

end VideoOutput.Cli
