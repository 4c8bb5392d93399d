import VideoOutput.Bytes
import VideoOutput.Text.Blank

/-!
# Descriptors and monitor names

A descriptor is eighteen bytes: a detailed timing or, with two leading zero bytes, a tagged text. A
monitor name may be spread over several name descriptors. `MonitorName` collects it piece by piece:
zero bytes are passed over, a newline ends the name, and at most thirteen bytes are kept.

A descriptor that is drafted has its length in its type, so a slot cannot be filled with too little.
One that is read is a list of bytes, cut out of a block, and the ones with a name are recognised by
three of their first five bytes.

A drafted piece of a name is filled up in two ways. A piece that holds the newline is the end of the
name, and is followed by spaces; one without it is continued in the next slot, and is followed by
zeros, which the reader passes over. A piece of thirteen bytes needs no filling. Since the reader
keeps thirteen bytes of a name in all, a longer name is stored in two slots and read in part.
-/

namespace VideoOutput.Edid

/-- The length of a descriptor. -/
def descriptorLength : Nat := 18

/-- The tag of a name descriptor. -/
def nameTag : UInt8 := 0xFC

/-- The most bytes of a name that are kept, and the most that one descriptor holds. -/
def nameLimit : Nat := 13

/-- The newline that ends a name. -/
def newline : UInt8 := 0x0A

/-- A descriptor as it is stored. -/
abbrev Descriptor := Vector UInt8 18

/-- The descriptor carries a piece of a monitor name and is no timing. -/
def isNameDescriptor (d : List UInt8) : Bool :=
  Bytes.get d 0 == 0 && Bytes.get d 1 == 0 && Bytes.get d 3 == nameTag

/-- A monitor name under collection. -/
structure MonitorName where
  text : List UInt8 := []
  ended : Bool := false
  deriving DecidableEq

namespace MonitorName

/-- Take in one byte. -/
def push (name : MonitorName) (b : UInt8) : MonitorName :=
  if name.ended then name
  else if b = newline then { name with ended := true }
  else if b = 0 then name
  else if name.text.length < nameLimit then { name with text := name.text ++ [b] }
  else name

/-- Take in a descriptor, if it carries a piece of the name. -/
def feed (name : MonitorName) (d : List UInt8) : MonitorName :=
  if isNameDescriptor d then (d.drop 5).foldl push name else name

/-- A byte of a name as a character. Bytes beyond seven bits are not text. -/
def charOf (b : UInt8) : Char :=
  if b < 128 then Char.ofNat b.toNat else '?'

/-- The collected name without the blanks at its end. -/
def finish (name : MonitorName) : String :=
  String.ofList (Text.trimEnd (name.text.map charOf))

end MonitorName

/-- Five leading bytes and thirteen bytes of text make a descriptor. -/
def Descriptor.ofText (tag : UInt8) (text : List UInt8) : Descriptor :=
  ⟨(Bytes.fit 18 ([0, 0, 0, tag, 0] ++ text)).toArray, by simp [Bytes.length_fit]⟩

/-- A name descriptor with a piece of a name, cut at thirteen bytes. A piece with a newline is
filled up with spaces, one without with zeros, so that the next piece continues it. -/
def Descriptor.ofName (piece : List UInt8) : Descriptor :=
  let text := piece.take nameLimit
  let filler := if newline ∈ text then 0x20 else 0
  .ofText nameTag (text ++ List.replicate (nameLimit - text.length) filler)

/-- A descriptor slot that holds nothing. -/
def Descriptor.unused : Descriptor :=
  .ofText 0x10 []

/-- The detailed timing of 1920x1080 at 60 pictures per second. -/
def Descriptor.timing1080p60 : Descriptor :=
  #v[0x02, 0x3A, 0x80, 0x18, 0x71, 0x38, 0x2D, 0x40, 0x58, 0x2C, 0x45, 0x00, 0x20, 0xC2, 0x31, 0x00,
    0x00, 0x1E]

end VideoOutput.Edid
