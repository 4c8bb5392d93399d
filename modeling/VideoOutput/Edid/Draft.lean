import VideoOutput.Edid.Identity

/-!
# Drafting blobs

A draft collects what a blob shall say, step by step, and `Draft.blob` writes it down with a right
checksum. A fresh draft is version 1.3 of manufacturer `RPI`, with a 1080p60 timing in the first
descriptor slot and the other slots unused.

A draft is a record with a part for every region of the base block, and a step sets a part. Nothing
is written before the blob is asked for, so the regions cannot overlap and their order is that of
`Draft.baseBody`. In memory it is done the other way round, and `Buffer` is that way: one block of
128 bytes is kept, and every step writes over some of them at a fixed offset (`Buffer.apply`). A new
buffer is a block of zeros with the header and the version in it, to which the first steps are then
applied; the number of extension blocks and the checksum are written into a copy of the block when the
blob is put together (`Buffer.blob`). `Proofs.DraftBuffer` shows that after any steps both give the
same blob, so all that is said about drafts is said about the bytes in memory as well.

A write is a copy of a slice into a slice of the same length, and a slice that reached over the end of
the block would stop the program. `Block.write` therefore asks for a proof that there is room, and
every write comes with one. Only the offset of a descriptor slot depends on an argument, and there are
four slots.

`CeaDraft` collects what an extension block shall say. Its data blocks are stored one behind the other
and cut where they reach the checksum, even inside a block. Its descriptors follow as long as whole
ones have room (`CeaDraft.storedFrom`): the first one that has no room ends the list, and none behind
it is stored either.
-/

namespace VideoOutput.Edid

/-- A block as it is stored. -/
abbrev Block := Vector UInt8 128

/-- Append the byte that makes a block sum to zero. -/
def sealed (body : List UInt8) : List UInt8 :=
  body ++ [0 - Bytes.sum body]

/-- What a blob shall say. Values are kept as they are given: letters of a manufacturer that have no
code, say, turn into zeros when the blob is written. -/
structure Draft where
  manufacturer : String := "RPI"
  productCode : UInt16 := 0
  serialNumber : UInt32 := 0
  /-- The week and the year as they are stored, whatever they mean to a reader. -/
  week : UInt8 := 0
  year : UInt8 := 0
  slots : Vector Descriptor 4 := #v[.timing1080p60, .unused, .unused, .unused]
  extensions : List Block := []
  isCorrupt : Bool := false

/-- One step of drafting. -/
inductive Draft.Step where
  | manufacturer (id : String)
  | productCode (code : UInt16)
  | serialNumber (number : UInt32)
  | manufactured (week year : UInt8)
  | descriptor (slot : Fin 4) (d : Descriptor)
  /-- Store a name in the second slot, and what does not fit there in the third. -/
  | monitorName (name : String)
  | extension (block : Block)
  /-- Leave the checksum of the base block one off. -/
  | corruptChecksum

namespace Draft

/-- Put a descriptor into a slot. -/
def withDescriptor (draft : Draft) (slot : Fin 4) (d : Descriptor) : Draft :=
  { draft with slots := draft.slots.set slot d }

/-- Store a name with its newline, in one slot if it fits and in two otherwise. -/
def withName (draft : Draft) (name : String) : Draft :=
  let text := Bytes.ofString name ++ [newline]
  if text.length ≤ nameLimit then draft.withDescriptor 1 (.ofName text)
  else
    (draft.withDescriptor 1 (.ofName (text.take nameLimit))).withDescriptor 2
      (.ofName (text.drop nameLimit))

/-- Take one step. -/
def apply (draft : Draft) : Step → Draft
  | .manufacturer id => { draft with manufacturer := id }
  | .productCode code => { draft with productCode := code }
  | .serialNumber number => { draft with serialNumber := number }
  | .manufactured week year => { draft with week, year }
  | .descriptor slot d => draft.withDescriptor slot d
  | .monitorName name => draft.withName name
  | .extension block => { draft with extensions := draft.extensions ++ [block] }
  | .corruptChecksum => { draft with isCorrupt := true }

/-- The draft after the steps, from a fresh one. -/
def ofSteps (steps : List Step) : Draft :=
  steps.foldl apply {}

/-- A byte of a manufacturer's letters as five bits. What is no capital letter becomes zero. -/
def letterBits (b : UInt8) : Nat :=
  if 0x41 ≤ b ∧ b ≤ 0x5A then b.toNat - 0x40 else 0

/-- The first three bytes of a manufacturer's letters, packed into two bytes. -/
def manufacturerBytes (id : String) : List UInt8 :=
  let bytes := Bytes.fit 3 (Bytes.ofString id)
  let packed := bytes.foldl (fun packed b => packed * 32 + letterBits b) 0
  (Bytes.ofNatLE 2 packed).reverse

theorem length_manufacturerBytes (id : String) : (manufacturerBytes id).length = 2 := by
  rw [manufacturerBytes, List.length_reverse, Bytes.length_ofNatLE]

/-- The base block without its checksum. What no step can set is zero. -/
def baseBody (draft : Draft) : List UInt8 :=
  header ++ manufacturerBytes draft.manufacturer ++ Bytes.ofNatLE 2 draft.productCode.toNat ++
    Bytes.ofNatLE 4 draft.serialNumber.toNat ++ [draft.week, draft.year, 1, 3] ++
    -- features, colors and standard timings are left out
    List.replicate 34 0 ++ draft.slots.toList.flatMap Vector.toList ++
    -- one byte has no room for more than 255 extension blocks, but these are written all the same
    [UInt8.ofNat (min draft.extensions.length 255)]

/-- The base block. -/
def base (draft : Draft) : List UInt8 :=
  if draft.isCorrupt then draft.baseBody ++ [1 - Bytes.sum draft.baseBody]
  else sealed draft.baseBody

/-- The blob that the draft describes. -/
def blob (draft : Draft) : List UInt8 :=
  draft.base ++ draft.extensions.flatMap Vector.toList

end Draft

/-! ## In memory -/

/-- Write bytes over those of a block, from an offset on. -/
def Block.write (block : Block) (offset : Nat) (bytes : List UInt8)
    (h : offset + bytes.length ≤ 128) : Block :=
  ⟨(block.toList.take offset ++ (bytes ++ block.toList.drop (offset + bytes.length))).toArray, by
    simp only [List.size_toArray, List.length_append, List.length_take, List.length_drop,
      Vector.length_toList]
    omega⟩

/-- The block with the byte at its end that makes it sum to zero. -/
def Block.withChecksum (block : Block) : Block :=
  block.write 0x7F [0 - Bytes.sum (block.toList.take 0x7F)] (by simp)

/-- The bytes of a draft. -/
structure Buffer where
  base : Block
  extensions : List Block := []
  isCorrupt : Bool := false
  deriving DecidableEq

namespace Buffer

/-- Write bytes over those of the base block. -/
def write (buffer : Buffer) (offset : Nat) (bytes : List UInt8)
    (h : offset + bytes.length ≤ 128) : Buffer :=
  { buffer with base := buffer.base.write offset bytes h }

/-- Write a descriptor into a slot. The slots lie one behind the other. -/
def withDescriptor (buffer : Buffer) (slot : Fin 4) (d : Descriptor) : Buffer :=
  buffer.write (0x36 + 18 * slot) d.toList (by rw [Vector.length_toList]; omega)

/-- Write a name with its newline, into one slot if it fits and into two otherwise. -/
def withName (buffer : Buffer) (name : String) : Buffer :=
  let text := Bytes.ofString name ++ [newline]
  if text.length ≤ nameLimit then buffer.withDescriptor 1 (.ofName text)
  else
    (buffer.withDescriptor 1 (.ofName (text.take nameLimit))).withDescriptor 2
      (.ofName (text.drop nameLimit))

/-- Take one step of drafting. -/
def apply (buffer : Buffer) : Draft.Step → Buffer
  | .manufacturer id =>
    buffer.write 0x08 (Draft.manufacturerBytes id) (by rw [Draft.length_manufacturerBytes]; decide)
  | .productCode code =>
    buffer.write 0x0A (Bytes.ofNatLE 2 code.toNat) (by rw [Bytes.length_ofNatLE]; decide)
  | .serialNumber number =>
    buffer.write 0x0C (Bytes.ofNatLE 4 number.toNat) (by rw [Bytes.length_ofNatLE]; decide)
  | .manufactured week year => buffer.write 0x10 [week, year] (by simp)
  | .descriptor slot d => buffer.withDescriptor slot d
  | .monitorName name => buffer.withName name
  | .extension block => { buffer with extensions := buffer.extensions ++ [block] }
  | .corruptChecksum => { buffer with isCorrupt := true }

/-- A block of zeros with the header and the version in it. -/
def blank : Buffer :=
  let zeros : Buffer := { base := Vector.replicate 128 0 }
  (zeros.write 0 header (by decide)).write 0x12 [1, 3] (by decide)

/-- A new buffer: the first steps are taken already. -/
def fresh : Buffer :=
  [.manufacturer "RPI", .descriptor 0 .timing1080p60, .descriptor 1 .unused, .descriptor 2 .unused,
    .descriptor 3 .unused].foldl apply blank

/-- The buffer after the steps, from a new one. -/
def ofSteps (steps : List Draft.Step) : Buffer :=
  steps.foldl apply fresh

/-- The base block with the number of extension blocks and the checksum. -/
def completed (buffer : Buffer) : Block :=
  let declared := UInt8.ofNat (min buffer.extensions.length 255)
  let base := (buffer.base.write 0x7E [declared] (by simp)).withChecksum
  if buffer.isCorrupt then base.write 0x7F [Bytes.get base.toList 0x7F + 1] (by simp) else base

/-- The blob of the buffer. -/
def blob (buffer : Buffer) : List UInt8 :=
  buffer.completed.toList ++ buffer.extensions.flatMap Vector.toList

end Buffer

/-! ## Extension blocks -/

/-- What a CEA extension block shall say. -/
structure CeaDraft where
  revision : UInt8 := ceaRevision
  /-- The stored data blocks, one behind the other. -/
  data : List UInt8 := []
  descriptors : List Descriptor := []

/-- One step of drafting an extension block. -/
inductive CeaDraft.Step where
  | revision (revision : UInt8)
  | dataBlock (tag : UInt8) (payload : List UInt8)
  | hdmi (address : PhysicalAddress)
  | descriptor (d : Descriptor)

namespace CeaDraft

/-- Append a data block. -/
def withData (draft : CeaDraft) (tag : UInt8) (payload : List UInt8) : CeaDraft :=
  { draft with data := draft.data ++ DataBlock.encode tag payload }

/-- Take one step. -/
def apply (draft : CeaDraft) : Step → CeaDraft
  | .revision revision => { draft with revision }
  | .dataBlock tag payload => draft.withData tag payload
  | .hdmi address => draft.withData (UInt8.ofNat vendorTag) (DataBlock.hdmiPayload address)
  | .descriptor d => { draft with descriptors := draft.descriptors ++ [d] }

/-- The draft after the steps, from a fresh one. -/
def ofSteps (steps : List Step) : CeaDraft :=
  steps.foldl apply {}

/-- The descriptors that are stored one behind the other from an offset on. The first one that would
reach into the checksum is left out, and so are all behind it. -/
def storedFrom (offset : Nat) : List Descriptor → List Descriptor
  | [] => []
  | d :: rest =>
    if checksumOffset < offset + descriptorLength then []
    else d :: storedFrom (offset + descriptorLength) rest

/-- As many are stored as whole descriptors have room. -/
theorem storedFrom_eq_take (offset : Nat) (descriptors : List Descriptor) :
    storedFrom offset descriptors =
      descriptors.take ((checksumOffset - offset) / descriptorLength) := by
  induction descriptors generalizing offset with
  | nil => simp [storedFrom]
  | cons d rest ih =>
    rw [storedFrom]
    split
    next hfull =>
      have hcount : (checksumOffset - offset) / descriptorLength = 0 := by
        simp only [descriptorLength, checksumOffset] at *
        omega
      rw [hcount, List.take_zero]
    next hroom =>
      have hcount : (checksumOffset - offset) / descriptorLength =
          (checksumOffset - (offset + descriptorLength)) / descriptorLength + 1 := by
        simp only [descriptorLength, checksumOffset] at *
        omega
      rw [ih, hcount, List.take_succ_cons]

/-- The block without its checksum. The data are cut to their room, and of the descriptors those are
stored that fit behind the data. -/
def body (draft : CeaDraft) : List UInt8 :=
  let data := draft.data.take (checksumOffset - dataStart)
  let d := dataStart + data.length
  Bytes.fit checksumOffset
    ([ceaTag, draft.revision, UInt8.ofNat d, 0] ++ data ++
      (storedFrom d draft.descriptors).flatMap Vector.toList)

/-- The extension block that the draft describes. -/
def block (draft : CeaDraft) : Block :=
  ⟨(sealed draft.body).toArray, by
    simp [sealed, body, Bytes.length_fit, checksumOffset]⟩

end CeaDraft

end VideoOutput.Edid
