import VideoOutput.Json.Number
import VideoOutput.Settings.Basic

/-!
# Settings from a JSON text

The settings of a text are what a reader of JSON texts makes of it, if they pass the check. The
reader is not part of this library, so `ofText` takes it as an argument: what is promised about
settings in texts holds for every reader that does what is documented (`Proofs.SettingsReader`), and
the check is all that is added here.

`parse` is the reader that the program is run with. Settings are written as a record with any of five
members, or as a list of the values in a fixed order. The text is read from front to back and the
first problem decides. A key is judged before its value is read: it must be one of those not yet
given, so an unknown key and a repeated one are refused alike. What is not given keeps its default.
-/

namespace VideoOutput.Settings

open VideoOutput.Json

/-- A member of the record. -/
inductive Field where
  | checksum
  | fallback
  | hdmiCount
  | compositeCount
  | queueLimit
  deriving DecidableEq

namespace Field

/-- Every field, in the order of a list. -/
def all : List Field :=
  [checksum, fallback, hdmiCount, compositeCount, queueLimit]

/-- The key of a field in a record. -/
def key : Field → String
  | checksum => "checksum_policy"
  | fallback => "fallback_resolution"
  | hdmiCount => "hdmi_ports"
  | compositeCount => "composite_ports"
  | queueLimit => "event_queue_len"

end Field

/-- Read a whole number that is at most `limit`. -/
def readCount (limit : Nat) (cs : List Char) : Read Nat :=
  if startsNumber cs then
    match readNumber cs with
    | .error p => .error p
    | .ok (none, _) => .error .data
    | .ok (some n, rest) => if n ≤ limit then .ok (n, rest) else .error .data
  else .error (unwanted cs)

/-- Read a string value. -/
def readText : List Char → Read (List Char)
  | '"' :: cs => readString cs
  | cs => .error (unwanted cs)

/-- Read the name of a checksum policy. Only a string can be one, and anything else is not even taken
for a value. -/
def readPolicyName : List Char → Read Edid.ChecksumPolicy
  | [] => .error .eof
  | '"' :: cs =>
    match readString cs with
    | .error p => .error p
    | .ok (name, rest) =>
      if name = "strict".toList then .ok (.strict, rest)
      else if name = "lenient".toList then .ok (.lenient, rest)
      else .error .data
  | _ => .error .malformed

/-- Read the colon behind a key. -/
def readColon (cs : List Char) : Except Problem (List Char) :=
  match skipSpace cs with
  | [] => .error .eof
  | ':' :: rest => .ok rest
  | _ => .error .malformed

/-- Read a null. -/
def readNull (cs : List Char) : Except Problem (List Char) :=
  match skipSpace cs with
  | 'n' :: rest => readWord ['u', 'l', 'l'] rest
  | cs => .error (unwanted cs)

/-- Read the end of a record with a single member. -/
def readRecordEnd (cs : List Char) : Except Problem (List Char) :=
  match skipSpace cs with
  | [] => .error .eof
  | '}' :: rest => .ok rest
  | _ => .error .malformed

/-- Read a checksum policy: its name, or a record with the name as key and a null behind it. The name
is read by the same reader in both places, so a key that is no string is malformed, too, and not a
value of the wrong kind. -/
def readPolicy : List Char → Except Problem (Edid.ChecksumPolicy × List Char)
  | '{' :: cs => do
    let (policy, cs) ← readPolicyName (skipSpace cs)
    let cs ← readColon cs
    let cs ← readNull cs
    let cs ← readRecordEnd cs
    return (policy, cs)
  | cs => readPolicyName cs

/-- Read the value of a field into the settings. -/
def readField (settings : Settings) (field : Field) (cs : List Char) : Read Settings :=
  let cs := skipSpace cs
  match field with
  | .checksum => (readPolicy cs).map fun (checksum, rest) => ({ settings with checksum }, rest)
  | .fallback =>
    (readText cs).map fun (text, rest) => ({ settings with fallback := String.ofList text }, rest)
  | .hdmiCount =>
    (readCount 255 cs).map fun (n, rest) => ({ settings with hdmiCount := UInt8.ofNat n }, rest)
  | .compositeCount =>
    (readCount 255 cs).map fun (n, rest) =>
      ({ settings with compositeCount := UInt8.ofNat n }, rest)
  | .queueLimit =>
    (readCount (wholeBound - 1) cs).map fun (n, rest) => ({ settings with queueLimit := n }, rest)

/-- Read the next key of a record, or the record's end. -/
def readKey (isFirst : Bool) (cs : List Char) : Read (Option (List Char)) :=
  let keyOf : List Char → Read (Option (List Char))
    | [] => .error .eof
    | '"' :: cs => (readString cs).map fun (key, rest) => (some key, rest)
    | _ => .error .malformed
  match skipSpace cs, isFirst with
  | '}' :: rest, _ => .ok (none, rest)
  | [], _ => .error .eof
  | ',' :: rest, false => keyOf (skipSpace rest)
  | _, false => .error .malformed
  | cs, true => keyOf cs

/-- Read the members of a record whose keys are among those of `unseen`. -/
def readMembers (unseen : List Field) (isFirst : Bool) (settings : Settings) (cs : List Char) :
    Read Settings :=
  match readKey isFirst cs with
  | .error p => .error p
  | .ok (none, rest) => .ok (settings, rest)
  | .ok (some key, rest) =>
    match _h : unseen.find? fun field => field.key.toList == key with
    | none => .error .data
    | some field =>
      match readColon rest with
      | .error p => .error p
      | .ok rest =>
        match readField settings field rest with
        | .error p => .error p
        | .ok (settings, rest) => readMembers (unseen.erase field) false settings rest
termination_by unseen.length
decreasing_by
  have := List.length_erase_of_mem (List.mem_of_find?_eq_some _h)
  have := List.length_pos_of_mem (List.mem_of_find?_eq_some _h)
  omega

/-- Read the start of the next value of a list: `true` if there is one, `false` at the end. -/
def readElementStart (isFirst : Bool) (cs : List Char) : Read Bool :=
  match skipSpace cs, isFirst with
  | ']' :: rest, _ => .ok (false, rest)
  | [], _ => .error .eof
  | ',' :: rest, false =>
    match skipSpace rest with
    | [] => .error .eof
    | ']' :: _ => .error .malformed
    | cs => .ok (true, cs)
  | _, false => .error .malformed
  | cs, true => .ok (true, cs)

/-- Read the end of a list that has all its values. -/
def readListEnd (cs : List Char) : Except Problem (List Char) :=
  match skipSpace cs with
  | [] => .error .eof
  | ']' :: rest => .ok rest
  | _ => .error .malformed

/-- Read the values of a list into the fields. -/
def readElements (fields : List Field) (isFirst : Bool) (settings : Settings) (cs : List Char) :
    Read Settings :=
  match fields with
  | [] => (readListEnd cs).map fun rest => (settings, rest)
  | field :: fields =>
    match readElementStart isFirst cs with
    | .error p => .error p
    | .ok (false, rest) => .ok (settings, rest)
    | .ok (true, rest) =>
      match readField settings field rest with
      | .error p => .error p
      | .ok (settings, rest) => readElements fields false settings rest

/-- Read settings in either form. -/
def readSettings (cs : List Char) : Read Settings :=
  match skipSpace cs with
  | '{' :: rest => readMembers Field.all true {} rest
  | '[' :: rest => readElements Field.all true {} rest
  | cs => .error (unwanted cs)

/-- The settings that a text describes, without asking whether they make sense. This is the reader
that the program is run with. -/
def parse (text : String) : Except Problem Settings :=
  match readSettings text.toList with
  | .error p => .error p
  | .ok (settings, rest) =>
    if skipSpace rest = [] then .ok settings else .error .malformed

/-- The settings that a text describes to a reader, if they make sense. -/
def ofText (read : String → Except Problem Settings) (text : String) :
    Except SettingsError Settings :=
  match read text with
  | .error problem => .error (.json problem)
  | .ok settings => settings.check

/-- The settings that a text describes. -/
def ofJson (text : String) : Except SettingsError Settings :=
  ofText parse text

end VideoOutput.Settings
