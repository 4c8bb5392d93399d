/-!
# Byte sequences

Little-endian numbers, fixed-length pieces, and the sum by which a block is checked. A byte sequence
is a list; reading past its end gives zero.

Reading is total, so that the functions that read a blob need no proof that an offset is inside it.
They look at the length of the blob first and only then at its bytes, and the theorems about them
say for which blobs they read at all. Bytes are numbers modulo 256, with the arithmetic that wraps
around, and the sum of a block is taken in it. What is written is cut or filled to the length of its
field (`fit`), so a field always has its length; `ofNatLE` keeps of a number as many low bytes as
the field has.
-/

namespace VideoOutput.Bytes

/-- The byte at a position. -/
def get (bytes : List UInt8) (i : Nat) : UInt8 :=
  bytes.getD i 0

/-- The bytes of a text in UTF-8. -/
def ofString (s : String) : List UInt8 :=
  s.toList.flatMap String.utf8EncodeChar

/-- The `width` bytes of a number, least significant first. -/
def ofNatLE : Nat → Nat → List UInt8
  | 0, _ => []
  | width + 1, n => UInt8.ofNat n :: ofNatLE width (n / 256)

/-- The number with the given bytes, least significant first. -/
def toNatLE : List UInt8 → Nat
  | [] => 0
  | b :: bs => b.toNat + 256 * toNatLE bs

/-- The first `count` pieces of `size` bytes. -/
def pieces (size : Nat) : Nat → List UInt8 → List (List UInt8)
  | 0, _ => []
  | count + 1, bytes => bytes.take size :: pieces size count (bytes.drop size)

/-- The sum of the bytes, modulo 256. -/
def sum (bytes : List UInt8) : UInt8 :=
  bytes.foldl (· + ·) 0

/-- The bytes cut or filled with zeros to exactly `size`. -/
def fit (size : Nat) (bytes : List UInt8) : List UInt8 :=
  (bytes ++ List.replicate size 0).take size

theorem length_ofNatLE (width n : Nat) : (ofNatLE width n).length = width := by
  induction width generalizing n with
  | zero => rfl
  | succ width ih => simp [ofNatLE, ih]

theorem length_pieces (size count : Nat) (bytes : List UInt8) :
    (pieces size count bytes).length = count := by
  induction count generalizing bytes with
  | zero => rfl
  | succ count ih => simp [pieces, ih]

theorem length_fit (size : Nat) (bytes : List UInt8) : (fit size bytes).length = size := by
  simp [fit]

end VideoOutput.Bytes
