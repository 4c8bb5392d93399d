import VideoOutput.Edid.DataBlock
import VideoOutput.Edid.Descriptor
import VideoOutput.Log

/-!
# Extension blocks

What one 128-byte block behind the base block contributes. Only blocks of the CEA kind in revision
three are read; byte 2 of such a block is the offset `d` at which its descriptors start:

```text
0       tag
1       revision
2       d (0: the block holds neither data blocks nor descriptors)
4..d    data blocks
d..127  descriptors of 18 bytes
127     checksum
```

`Extension.fault?` is the offset of the first thing wrong with a block, in the order in which a
reader meets them. A block that is not read has nothing wrong with it.

A vendor block that is too short is in front of one that reaches beyond the area, as cutting ends
with the latter. Descriptors are taken one behind the other as long as a whole one fits in front of
the checksum (`descriptorsFrom`); what is left over between the last one and the checksum is not
looked at, and how many steps the walk makes is a quotient (`descriptorsFrom_eq_pieces`).
-/

namespace VideoOutput.Edid

/-- The length of a block. -/
def blockLength : Nat := 128

/-- The tag of a CEA extension block. -/
def ceaTag : UInt8 := 0x02

/-- The revision of the CEA extension that is read. -/
def ceaRevision : UInt8 := 3

/-- Where the data blocks of an extension start. -/
def dataStart : Nat := 4

/-- Where the room for data blocks and descriptors ends. -/
def checksumOffset : Nat := 127

/-- An extension block, as far as it is read. -/
inductive Extension where
  /-- A block of another kind. -/
  | foreign (tag : UInt8)
  /-- A CEA block of a revision that is not read. -/
  | unsupported (revision : UInt8)
  /-- A CEA block that holds nothing. -/
  | vacant
  /-- A CEA block whose descriptors would start outside their room. -/
  | misplaced
  /-- A CEA block with its data blocks, the offset of one that reaches too far, and its
  descriptors. -/
  | filled (data : List DataBlock) (overrun : Option Nat) (descriptors : List (List UInt8))

namespace Extension

/-- The descriptors that stand one behind the other from an offset on. The first one that would
reach into the checksum ends the walk. -/
def descriptorsFrom (block : List UInt8) (offset : Nat) : List (List UInt8) :=
  if offset + descriptorLength ≤ checksumOffset then
    (block.drop offset).take descriptorLength :: descriptorsFrom block (offset + descriptorLength)
  else []
termination_by checksumOffset - offset
decreasing_by
  simp only [descriptorLength, checksumOffset] at *
  omega

/-- Read a block. -/
def ofBlock (block : List UInt8) : Extension :=
  let d := (Bytes.get block 2).toNat
  if Bytes.get block 0 ≠ ceaTag then .foreign (Bytes.get block 0)
  else if Bytes.get block 1 ≠ ceaRevision then .unsupported (Bytes.get block 1)
  else if d = 0 then .vacant
  else if d < dataStart ∨ checksumOffset < d then .misplaced
  else
    let area := DataBlock.split dataStart ((block.take d).drop dataStart)
    .filled area.1 area.2 (descriptorsFrom block d)

/-- The offset of the first fault of the block. -/
def fault? : Extension → Option Nat
  | .misplaced => some 2
  | .filled data overrun _ =>
    match data.find? DataBlock.isCutShort with
    | some d => some d.offset
    | none => overrun
  | _ => none

/-- The walk makes as many steps as whole descriptors have room. -/
theorem descriptorsFrom_eq_pieces (block : List UInt8) (offset : Nat) :
    descriptorsFrom block offset =
      Bytes.pieces descriptorLength ((checksumOffset - offset) / descriptorLength)
        (block.drop offset) := by
  fun_induction descriptorsFrom block offset with
  | case1 offset hroom ih =>
    have hcount : (checksumOffset - offset) / descriptorLength =
        (checksumOffset - (offset + descriptorLength)) / descriptorLength + 1 := by
      simp only [descriptorLength, checksumOffset] at *
      omega
    rw [ih, hcount, Bytes.pieces, List.drop_drop]
  | case2 offset hroom =>
    have hcount : (checksumOffset - offset) / descriptorLength = 0 := by
      simp only [descriptorLength, checksumOffset] at *
      omega
    rw [hcount, Bytes.pieces]

/-- The addresses in the HDMI vendor blocks. -/
def addresses : Extension → List PhysicalAddress
  | .filled data _ _ => data.filterMap DataBlock.address?
  | _ => []

/-- The descriptors of the block. -/
def descriptors : Extension → List (List UInt8)
  | .filled _ _ descriptors => descriptors
  | _ => []

/-- The entry for a data block of another vendor. -/
def vendorLog (index : Nat) (d : DataBlock) : List Log.Entry :=
  match d.vendor? with
  | some (.other identifier) =>
    [⟨.debug, "ignoring vendor block",
      [("index", .number index), ("oui", .text (Text.hexPadded 6 identifier))]⟩]
  | _ => []

/-- The entries for what is passed over in the block at `index`, up to its first fault. -/
def log (index : Nat) : Extension → List Log.Entry
  | .foreign tag =>
    [⟨.debug, "skipping non-CEA extension block",
      [("index", .number index), ("tag", .number tag.toNat)]⟩]
  | .unsupported revision =>
    [⟨.debug, "skipping CEA block with unsupported revision",
      [("index", .number index), ("revision", .number revision.toNat)]⟩]
  | .filled data _ _ =>
    (data.takeWhile fun d => !d.isCutShort).flatMap (vendorLog index)
  | _ => []

end Extension

end VideoOutput.Edid
