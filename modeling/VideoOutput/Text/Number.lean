/-!
# Reading whole numbers

A number is written with an optional `+` and at least one digit of its base; letters of either case
are digits above nine. Reading goes from left to right and stops at the first problem, so a bad
digit behind a number that has already grown too large is not seen.

Base and limit are arguments, since one rule serves for everything that is read: components of
addresses, limits of queues, codes and numbers on the command line. The sign is not a digit and
stands in front only; a sign alone is a bad digit, while no character at all is told apart as
emptiness. Leading zeros are digits like others, and as they leave the value at zero, there may be
any number of them. The wording of the three errors is the one that callers put behind their own.
-/

namespace VideoOutput.Text

/-- Why a text is not a number below the limit. -/
inductive NumberError where
  | empty
  | invalidDigit
  | tooLarge
  deriving DecidableEq

/-- The wording of a number error. -/
def NumberError.message : NumberError → String
  | .empty => "cannot parse integer from empty string"
  | .invalidDigit => "invalid digit found in string"
  | .tooLarge => "number too large to fit in target type"

/-- The value of a digit in bases up to sixteen. -/
def digitValue? (base : Nat) (c : Char) : Option Nat :=
  let n := c.toNat
  let value? :=
    if 0x30 ≤ n ∧ n ≤ 0x39 then some (n - 0x30)
    else if 0x61 ≤ n ∧ n ≤ 0x66 then some (n - 0x61 + 10)
    else if 0x41 ≤ n ∧ n ≤ 0x46 then some (n - 0x41 + 10)
    else none
  value?.filter (· < base)

/-- Continue the number `value` with the digits of `cs`, staying at or below `limit`. -/
def readDigits (base limit : Nat) : Nat → List Char → Except NumberError Nat
  | value, [] => .ok value
  | value, c :: cs =>
    match digitValue? base c with
    | none => .error .invalidDigit
    | some d =>
      if value * base + d ≤ limit then readDigits base limit (value * base + d) cs
      else .error .tooLarge

/-- Read a number of the base that is at most `limit`. -/
def readNumber (base limit : Nat) : List Char → Except NumberError Nat
  | [] => .error .empty
  | ['+'] => .error .invalidDigit
  | '+' :: cs => readDigits base limit 0 cs
  | cs => readDigits base limit 0 cs

end VideoOutput.Text
