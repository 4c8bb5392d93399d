/-!
# The parts of a JSON text

Readers for the smallest parts of a JSON text: spaces, fixed words and strings. A reader takes the
rest of the text and answers what it read with what follows it, or the first problem. `Problem`
tells a text that ends too early from one that is malformed and from one whose value is not wanted.

A text is read from left to right and only once, so a problem in front hides every problem behind
it, whatever sort it is of. Strings are read character by character. An escape takes one character
of the string, and a character beyond the first plane, written by its code units, takes two of them:
the high half, and behind it the low half with its own escape. A half without the other is
malformed.

The lengths of what is left are stated with the readers, because the readers of nested values
recurse on it.
-/

namespace VideoOutput.Json

/-- Why a text is refused. -/
inductive Problem where
  /-- The text ends too early. -/
  | eof
  /-- The text is no JSON. -/
  | malformed
  /-- The text is JSON, but its value is not acceptable. -/
  | data
  deriving DecidableEq

/-- The name of a problem's category. -/
def Problem.category : Problem → String
  | .eof => "eof"
  | .malformed => "syntax"
  | .data => "data"

/-- What was read and what follows it. -/
abbrev Read (α : Type) := Except Problem (α × List Char)

/-- The character may stand between the parts of a text. -/
def isSpace (c : Char) : Bool :=
  c == ' ' || c == '\n' || c == '\t' || c == '\r'

/-- The text without the spaces at its start. -/
def skipSpace (cs : List Char) : List Char :=
  cs.dropWhile isSpace

/-- Read the rest of a fixed word. -/
def readWord : List Char → List Char → Except Problem (List Char)
  | [], cs => .ok cs
  | _ :: _, [] => .error .eof
  | w :: word, c :: cs => if c = w then readWord word cs else .error .malformed

/-- The value of a hexadecimal digit. -/
def hexValue? (c : Char) : Option Nat :=
  if '0' ≤ c ∧ c ≤ '9' then some (c.toNat - 0x30)
  else if 'a' ≤ c ∧ c ≤ 'f' then some (c.toNat - 0x61 + 10)
  else if 'A' ≤ c ∧ c ≤ 'F' then some (c.toNat - 0x41 + 10)
  else none

/-- The number of bytes that the characters take in UTF-8. -/
def byteLength (cs : List Char) : Nat :=
  cs.foldl (fun length c => length + c.utf8Size) 0

/-- Read the four hexadecimal digits of a code unit. -/
def readUnit : List Char → Read Nat
  | a :: b :: c :: d :: rest =>
    match hexValue? a, hexValue? b, hexValue? c, hexValue? d with
    | some a, some b, some c, some d => .ok (((a * 16 + b) * 16 + c) * 16 + d, rest)
    | _, _, _, _ => .error .malformed
  | cs => .error (if byteLength cs < 4 then .eof else .malformed)

/-- The code unit is the first half of a pair. -/
def isHighUnit (n : Nat) : Bool :=
  0xD800 ≤ n && n ≤ 0xDBFF

/-- The code unit is the second half of a pair. -/
def isLowUnit (n : Nat) : Bool :=
  0xDC00 ≤ n && n ≤ 0xDFFF

/-- Read the second half of a pair whose first half is `high`. -/
def readLowUnit (high : Nat) : List Char → Read Char
  | [] => .error .eof
  | ['\\'] => .error .eof
  | '\\' :: 'u' :: cs =>
    match readUnit cs with
    | .error p => .error p
    | .ok (low, rest) =>
      if isLowUnit low then
        .ok (Char.ofNat (0x10000 + (high - 0xD800) * 0x400 + (low - 0xDC00)), rest)
      else .error .malformed
  | _ => .error .malformed

/-- Read a character written by its code units. -/
def readCodePoint (cs : List Char) : Read Char :=
  match readUnit cs with
  | .error p => .error p
  | .ok (unit, rest) =>
    if isLowUnit unit then .error .malformed
    else if isHighUnit unit then readLowUnit unit rest
    else .ok (Char.ofNat unit, rest)

/-- Read what stands behind a backslash. -/
def readEscape : List Char → Read Char
  | [] => .error .eof
  | '"' :: cs => .ok ('"', cs)
  | '\\' :: cs => .ok ('\\', cs)
  | '/' :: cs => .ok ('/', cs)
  | 'b' :: cs => .ok ('\x08', cs)
  | 'f' :: cs => .ok ('\x0c', cs)
  | 'n' :: cs => .ok ('\n', cs)
  | 'r' :: cs => .ok ('\r', cs)
  | 't' :: cs => .ok ('\t', cs)
  | 'u' :: cs => readCodePoint cs
  | _ => .error .malformed

theorem length_of_readUnit {cs rest : List Char} {n : Nat} (h : readUnit cs = .ok (n, rest)) :
    rest.length ≤ cs.length := by
  unfold readUnit at h
  split at h
  · split at h
    · injection h with h
      simp only [Prod.mk.injEq] at h
      simp only [List.length_cons, ← h.2]
      omega
    · nomatch h
  · nomatch h

theorem length_of_readLowUnit {high : Nat} {cs rest : List Char} {c : Char}
    (h : readLowUnit high cs = .ok (c, rest)) : rest.length ≤ cs.length := by
  unfold readLowUnit at h
  split at h
  · nomatch h
  · nomatch h
  · split at h
    · nomatch h
    · rename_i read
      split at h
      · injection h with h
        simp only [Prod.mk.injEq] at h
        have := length_of_readUnit read
        simp only [List.length_cons, ← h.2]
        omega
      · nomatch h
  · nomatch h

theorem length_of_readCodePoint {cs rest : List Char} {c : Char}
    (h : readCodePoint cs = .ok (c, rest)) : rest.length ≤ cs.length := by
  unfold readCodePoint at h
  split at h
  · nomatch h
  · rename_i read
    have := length_of_readUnit read
    split at h
    · nomatch h
    · split at h
      · exact Nat.le_trans (length_of_readLowUnit h) this
      · injection h with h
        simp only [Prod.mk.injEq] at h
        simpa only [← h.2] using this

theorem length_of_readEscape {cs rest : List Char} {c : Char}
    (h : readEscape cs = .ok (c, rest)) : rest.length < cs.length := by
  unfold readEscape at h
  split at h <;> first
    | exact Nat.lt_succ_of_le (length_of_readCodePoint h)
    | cases h <;> simp

/-- Read a string up to its closing quote; the opening one is already read. -/
def readString : List Char → Read (List Char)
  | [] => .error .eof
  | c :: cs =>
    if c = '"' then .ok ([], cs)
    else if c = '\\' then
      match h : readEscape cs with
      | .error p => .error p
      | .ok (e, rest) =>
        have := length_of_readEscape h
        match readString rest with
        | .error p => .error p
        | .ok (text, rest) => .ok (e :: text, rest)
    else if c.toNat < 0x20 then .error .malformed
    else
      match readString cs with
      | .error p => .error p
      | .ok (text, rest) => .ok (c :: text, rest)
termination_by cs => cs.length

end VideoOutput.Json
