/-!
# Hexadecimal text

Lower-case hexadecimal digits of a number, and the `0x` form with a least number of digits. Numbers
that need more digits than the least number have as many as they need; nothing is cut off. Zero has
one digit.
-/

namespace VideoOutput.Text

/-- The hexadecimal digits of a number, most significant first, without leading zeros. -/
def hexDigits (n : Nat) : String :=
  String.ofList (Nat.toDigits 16 n)

/-- The hexadecimal digits of a number, with leading zeros up to `width` digits. -/
def hexPadded (width n : Nat) : String :=
  String.ofList ((Nat.toDigits 16 n).leftpad width '0')

/-- The `0x` form of a number with at least `width` digits. -/
def hexLiteral (width n : Nat) : String :=
  "0x" ++ hexPadded width n

/-- Two hexadecimal digits for every byte. -/
def hexBytes (bytes : List UInt8) : String :=
  String.ofList (bytes.flatMap fun b => (Nat.toDigits 16 b.toNat).leftpad 2 '0')

end VideoOutput.Text
