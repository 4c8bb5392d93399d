import VideoOutput.Json.Lexeme

/-!
# JSON numbers

A number is an optional minus, digits without a leading zero, an optional fraction and an optional
exponent. Only its whole, unsigned values below 2^64 are of use to anyone here; every other number
is read and set aside, except that one beyond the range of double precision is refused.

A number is kept as it is written, by its digits, because whether it is a whole one is decided by
how it is written: one with a fraction or an exponent is not, even if its value is. The range of
double precision is judged by the usual way to convert digits: the significand takes in as many of
them as stay below 2^64 and the rest goes to the exponent, both are rounded, and their product is
rounded again. No value of double precision is ever made; the judgement is exact arithmetic on whole
numbers.
-/

namespace VideoOutput.Json

/-- A number's digits and exponent, as written. -/
structure Decimal where
  whole : List Nat
  fraction : Option (List Nat)
  exponent : Option Int

/-- The bound of whole values. -/
def wholeBound : Nat := UInt64.size

/-- Read digits onto a value as long as it stays below the bound; with the number of digits left. -/
def absorb (value : Nat) : List Nat → Nat × Nat
  | [] => (value, 0)
  | d :: ds =>
    if value * 10 + d < wholeBound then absorb (value * 10 + d) ds else (value, ds.length + 1)

/-- The nearest number with at most 53 significant bits; of two, the one whose last bit is zero. -/
def roundToDouble (n : Nat) : Nat :=
  let drop := n.log2 + 1 - 53
  let unit := 1 <<< drop
  let kept := n / unit
  let rest := n % unit
  if unit < 2 * rest ∨ (unit = 2 * rest ∧ kept % 2 = 1) then (kept + 1) * unit else kept * unit

namespace Decimal

/-- The number is beyond the range of double precision. -/
def isOutOfRange (n : Decimal) : Bool :=
  let (whole, wholeLeft) := absorb 0 n.whole
  let fraction := n.fraction.getD []
  let (significand, fractionLeft) := absorb whole fraction
  let exponent : Int := wholeLeft - (fraction.length - fractionLeft : Nat) + n.exponent.getD 0
  significand != 0 && 0 < exponent &&
    (308 < exponent ||
      1 <<< 1024 ≤ roundToDouble
        (roundToDouble significand * roundToDouble (Nat.pow 10 exponent.toNat)))

/-- The value, if the number is written as a whole number below the bound. -/
def whole? (n : Decimal) : Option Nat :=
  match n.fraction, n.exponent, absorb 0 n.whole with
  | none, none, (value, 0) => some value
  | _, _, _ => none

end Decimal

/-- Read the digits at the start of a text. -/
def readDigits (cs : List Char) : List Nat × List Char :=
  ((cs.takeWhile Char.isDigit).map fun c => c.toNat - 0x30, cs.dropWhile Char.isDigit)

/-- Read digits of which there must be at least one. -/
def readSomeDigits (cs : List Char) : Read (List Nat) :=
  match cs, readDigits cs with
  | [], _ => .error .eof
  | _, ([], _) => .error .malformed
  | _, (ds, rest) => .ok (ds, rest)

/-- Read the whole part: zero, or digits that start with another one. -/
def readWholePart (cs : List Char) : Read (List Nat) :=
  match readSomeDigits cs with
  | .ok (0 :: _ :: _, _) => .error .malformed
  | result => result

/-- Read the fraction, if there is one. -/
def readFraction : List Char → Read (Option (List Nat))
  | '.' :: cs =>
    match readSomeDigits cs with
    | .error p => .error p
    | .ok (ds, rest) => .ok (some ds, rest)
  | cs => .ok (none, cs)

/-- Read the sign of an exponent, if there is one; `true` for a minus. -/
def readSign : List Char → Bool × List Char
  | '+' :: cs => (false, cs)
  | '-' :: cs => (true, cs)
  | cs => (false, cs)

/-- Read the exponent behind its letter. -/
def readExponentValue (cs : List Char) : Read (Option Int) :=
  let (isNegative, cs) := readSign cs
  match readSomeDigits cs with
  | .error p => .error p
  | .ok (ds, rest) =>
    let value : Nat := ds.foldl (fun value d => value * 10 + d) 0
    .ok (some (if isNegative then -(value : Int) else value), rest)

/-- Read the exponent, if there is one. -/
def readExponent : List Char → Read (Option Int)
  | 'e' :: cs => readExponentValue cs
  | 'E' :: cs => readExponentValue cs
  | cs => .ok (none, cs)

/-- Read a number without its sign. -/
def readDecimal (cs : List Char) : Read Decimal :=
  match readWholePart cs with
  | .error p => .error p
  | .ok (whole, cs) =>
    match readFraction cs with
    | .error p => .error p
    | .ok (fraction, cs) =>
      match readExponent cs with
      | .error p => .error p
      | .ok (exponent, cs) =>
        if Decimal.isOutOfRange ⟨whole, fraction, exponent⟩ then .error .malformed
        else .ok (⟨whole, fraction, exponent⟩, cs)

/-- The text starts like a number. -/
def startsNumber : List Char → Bool
  | c :: _ => c == '-' || c.isDigit
  | [] => false

/-- Read a number; the value is present if it is a whole number without a sign. -/
def readNumber : List Char → Read (Option Nat)
  | '-' :: cs =>
    match readDecimal cs with
    | .error p => .error p
    | .ok (_, rest) => .ok (none, rest)
  | cs =>
    match readDecimal cs with
    | .error p => .error p
    | .ok (n, rest) => .ok (n.whole?, rest)

/-- The problem with a value of an unwanted kind. A simple value is read to its end first, and a
list or record is refused at its start. -/
def unwanted (cs : List Char) : Problem :=
  let dataAfter {α : Type} : Except Problem α → Problem
    | .error p => p
    | .ok _ => .data
  match cs with
  | [] => .eof
  | 'n' :: cs => dataAfter (readWord ['u', 'l', 'l'] cs)
  | 't' :: cs => dataAfter (readWord ['r', 'u', 'e'] cs)
  | 'f' :: cs => dataAfter (readWord ['a', 'l', 's', 'e'] cs)
  | '"' :: cs => dataAfter (readString cs)
  | '[' :: _ => .data
  | '{' :: _ => .data
  | cs => if startsNumber cs then dataAfter (readNumber cs) else .malformed

end VideoOutput.Json
