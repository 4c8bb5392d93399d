import VideoOutput.Text.Hex
import VideoOutput.Text.Number
import VideoOutput.Text.Quoted

/-!
# Physical addresses

The place of a sink in the tree of HDMI devices: four components, written `A.B.C.D` in hexadecimal.
Two bytes hold an address whose components are below sixteen. Reading the written form accepts one
hexadecimal number per component and names the leftmost component that is not one.

A component is a byte in the record, and only its lower half is stored in a vendor block. So an
address that is drafted and read again is the same only if all its components are below sixteen,
which those that are read always are. A component is read by the general rule for numbers: it may
have a plus sign and leading zeros, and letters of either case are digits. What is refused says
whether it is no number, a number above what a byte holds, or one that is too wide for its half.
-/

namespace VideoOutput.Edid

/-- A physical address. -/
structure PhysicalAddress where
  a : UInt8
  b : UInt8
  c : UInt8
  d : UInt8
  deriving DecidableEq

/-- Why a text is no physical address. -/
inductive AddressError where
  | notFourParts (text : String)
  | badPart (part : String) (cause : Text.NumberError)
  | tooWide (part : String)
  deriving DecidableEq

/-- The wording of an address error, the cause last. -/
def AddressError.messages : AddressError → List String
  | .notFourParts text => ["expected A.B.C.D, got " ++ Text.quoted text]
  | .badPart part cause => ["bad address component " ++ Text.quoted part, cause.message]
  | .tooWide part => ["address component " ++ Text.quoted part ++ " is wider than a nibble"]

namespace PhysicalAddress

/-- The address in the two bytes of a vendor block, one component in each half byte. -/
def ofBytes (ab cd : UInt8) : PhysicalAddress :=
  ⟨ab / 16, ab % 16, cd / 16, cd % 16⟩

/-- The two bytes of an address. Of every component only the lower half byte is stored. -/
def toBytes (p : PhysicalAddress) : List UInt8 :=
  [p.a % 16 * 16 + p.b % 16, p.c % 16 * 16 + p.d % 16]

/-- The written form of an address. -/
def text (p : PhysicalAddress) : String :=
  ".".intercalate ([p.a, p.b, p.c, p.d].map fun n => Text.hexDigits n.toNat)

/-- Read one component: a hexadecimal byte that fits into half a byte. -/
def readPart (part : List Char) : Except AddressError UInt8 :=
  match Text.readNumber 16 255 part with
  | .error cause => .error (.badPart (String.ofList part) cause)
  | .ok value =>
    if value ≤ 15 then .ok (UInt8.ofNat value) else .error (.tooWide (String.ofList part))

/-- Read the written form of an address. -/
def ofText (s : String) : Except AddressError PhysicalAddress :=
  match s.toList.splitOn '.' with
  | [pa, pb, pc, pd] => do
    let a ← readPart pa
    let b ← readPart pb
    let c ← readPart pc
    let d ← readPart pd
    return ⟨a, b, c, d⟩
  | _ => .error (.notFourParts s)

end PhysicalAddress

end VideoOutput.Edid
