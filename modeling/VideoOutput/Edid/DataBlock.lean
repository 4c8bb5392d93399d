import VideoOutput.Bytes
import VideoOutput.Edid.Address

/-!
# Data blocks

The data block area of an extension holds data blocks one behind the other. Each starts with a
header byte, whose upper three bits are a tag and whose lower five the length of the payload.
`DataBlock.split` cuts an area into its blocks and tells where one reaches beyond the end.

A vendor block is a data block with tag three. Its payload starts with the vendor's identifier; a
block of the HDMI vendor goes on with the physical address of the sink.

Cutting and judging are kept apart. `split` looks at nothing but headers, and ends at the first
block that does not fit; whether a vendor block is too short is asked of the blocks that were cut
(`isCutShort`). The offset of a block is counted from the start of the extension block, as that is
how a fault is told.

`encode` is the stored form of a data block. It keeps three bits of the tag and at most 31 bytes of
the payload, so whatever it is given the header tells the length of what is behind it.
-/

namespace VideoOutput.Edid

/-- A data block and the offset of its header. -/
structure DataBlock where
  offset : Nat
  tag : Nat
  payload : List UInt8
  deriving DecidableEq

/-- What a vendor block says. -/
inductive Vendor where
  /-- The sink's address, from the HDMI vendor. -/
  | hdmi (address : PhysicalAddress)
  /-- Something of another vendor. -/
  | other (identifier : Nat)
  /-- The payload is too short for an identifier, or for the address behind it. -/
  | cutShort
  deriving DecidableEq

/-- The tag of a vendor block. -/
def vendorTag : Nat := 3

/-- The identifier of the HDMI vendor. -/
def hdmiIdentifier : Nat := 0x000C03

/-- What the payload of a vendor block says. -/
def Vendor.ofPayload : List UInt8 → Vendor
  | x :: y :: z :: rest =>
    if Bytes.toNatLE [x, y, z] = hdmiIdentifier then
      match rest with
      | ab :: cd :: _ => .hdmi (.ofBytes ab cd)
      | _ => .cutShort
    else .other (Bytes.toNatLE [x, y, z])
  | _ => .cutShort

namespace DataBlock

/-- What the block says if it is a vendor block. -/
def vendor? (d : DataBlock) : Option Vendor :=
  if d.tag = vendorTag then some (.ofPayload d.payload) else none

/-- The address in the block, if it is one of the HDMI vendor. -/
def address? (d : DataBlock) : Option PhysicalAddress :=
  match d.vendor? with
  | some (.hdmi address) => some address
  | _ => none

/-- The block is a vendor block with too short a payload. -/
def isCutShort (d : DataBlock) : Bool :=
  d.vendor? == some .cutShort

/-- Cut an area that starts at `offset` into data blocks. The second part is the offset of the
first block that reaches beyond the end of the area. -/
def split (offset : Nat) : List UInt8 → List DataBlock × Option Nat
  | [] => ([], none)
  | header :: rest =>
    let length := header.toNat % 32
    if rest.length < length then ([], some offset)
    else
      let more := split (offset + 1 + length) (rest.drop length)
      (⟨offset, header.toNat / 32, rest.take length⟩ :: more.1, more.2)
termination_by area => area.length
decreasing_by simp only [List.length_drop, List.length_cons]; omega

/-- The stored form of a data block: three bits of the tag and at most 31 bytes of payload. -/
def encode (tag : UInt8) (payload : List UInt8) : List UInt8 :=
  let payload := payload.take 31
  UInt8.ofNat (tag.toNat % 8 * 32 + payload.length) :: payload

/-- The payload of an HDMI vendor block with an address. -/
def hdmiPayload (address : PhysicalAddress) : List UInt8 :=
  Bytes.ofNatLE 3 hdmiIdentifier ++ address.toBytes

end DataBlock

end VideoOutput.Edid
