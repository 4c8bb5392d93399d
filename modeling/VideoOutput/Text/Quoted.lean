import VideoOutput.Text.Hex
import VideoOutput.Text.Printable

/-!
# Quoted text

The form in which messages show a text they were given: in double quotes, with a backslash before a
quote or a backslash, short escapes for the usual controls, and the code point of every other
character that has no visible form. What is shown in this way can be told from the words around it,
whatever characters it has. Which characters are visible is decided by the table of printable ones.
-/

namespace VideoOutput.Text

/-- One character as it stands between quotes. -/
def quotedChar (c : Char) : String :=
  if c = '"' then "\\\""
  else if c = '\\' then "\\\\"
  else if c = '\n' then "\\n"
  else if c = '\r' then "\\r"
  else if c = '\t' then "\\t"
  else if c = '\x00' then "\\0"
  else if isPrintable c then c.toString
  else "\\u\x7b" ++ hexDigits c.toNat ++ "\x7d"

/-- The text between double quotes. -/
def quoted (s : String) : String :=
  "\"" ++ String.join (s.toList.map quotedChar) ++ "\""

end VideoOutput.Text
