import VideoOutput.Text.Hex

/-!
# Writing JSON

A JSON value and its written form, indented by two spaces per level. Members stand in the order in
which they are given. An empty list takes no lines of its own.

Writing is a function of the value and the depth at which it stands, by recursion on the value. In
strings the quotation mark, the backslash and the controls are escaped, the usual ones by their
short form and the others by their code unit; every other character stands for itself. Numbers are
whole and unsigned, as no other numbers are ever written here.
-/

namespace VideoOutput.Json

/-- A JSON value. -/
inductive Value where
  | null
  | bool (b : Bool)
  | number (n : Nat)
  | text (s : String)
  | list (items : List Value)
  | record (members : List (String × Value))

namespace Value

/-- The value, or null if it is absent. -/
def ofOption {α : Type} (encode : α → Value) : Option α → Value
  | none => .null
  | some a => encode a

/-- A character as it stands in a string. -/
def escaped (c : Char) : String :=
  if c = '"' then "\\\""
  else if c = '\\' then "\\\\"
  else if c = '\x08' then "\\b"
  else if c = '\t' then "\\t"
  else if c = '\n' then "\\n"
  else if c = '\x0c' then "\\f"
  else if c = '\r' then "\\r"
  else if c.toNat < 0x20 then "\\u" ++ Text.hexPadded 4 c.toNat
  else c.toString

/-- A string with its quotes. -/
def writeText (s : String) : String :=
  "\"" ++ String.join (s.toList.map escaped) ++ "\""

/-- The start of a line at a depth. -/
def indent (depth : Nat) : String :=
  "\n" ++ String.ofList (List.replicate (2 * depth) ' ')

/-- Written items between brackets, each on a line of its own. -/
def bracketed (opening closing : String) (depth : Nat) (items : List String) : String :=
  match items with
  | [] => opening ++ closing
  | _ =>
    opening ++ ",".intercalate (items.map fun item => indent (depth + 1) ++ item) ++
      indent depth ++ closing

mutual

/-- The written form of a value at a depth. -/
def writeAt (depth : Nat) : Value → String
  | .null => "null"
  | .bool b => if b then "true" else "false"
  | .number n => toString n
  | .text s => writeText s
  | .list items => bracketed "[" "]" depth (writeItems (depth + 1) items)
  | .record members => bracketed "\x7b" "\x7d" depth (writeMembers (depth + 1) members)

/-- The written forms of list items. -/
def writeItems (depth : Nat) : List Value → List String
  | [] => []
  | item :: items => writeAt depth item :: writeItems depth items

/-- The written forms of record members. -/
def writeMembers (depth : Nat) : List (String × Value) → List String
  | [] => []
  | (key, value) :: members =>
    (writeText key ++ ": " ++ writeAt depth value) :: writeMembers depth members

end

/-- The written form of a value. -/
def write (value : Value) : String :=
  writeAt 0 value

end Value

end VideoOutput.Json
