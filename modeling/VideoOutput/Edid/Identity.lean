import VideoOutput.Edid.Date
import VideoOutput.Edid.Error
import VideoOutput.Edid.Extension
import VideoOutput.Mode.Resolution

/-!
# The identity of a display

A blob is a base block of 128 bytes with extension blocks of the same length behind it. The base
block tells who made the display and when and holds four descriptors; the extensions add the HDMI
address and further descriptors. `validate` checks only what makes a base block; `decode` reads the
whole blob.

Under the strict policy a wrong checksum and missing extension blocks are refused. The lenient
policy reports them and reads what is there. What is refused comes in a fixed order: length, header,
checksum, number of extensions, and then the first fault of the first faulty extension block.

The identity is filled in the order of the blob. The base block sets its fields; every HDMI vendor
block that is met then overwrites the address, the mark of a repeater and the mark of an HDMI
display, each by its own assignment (`Identity.meetHdmi`), so that the last block counts. A monitor
name is collected from all descriptors, those of the base block first. The current year is an
argument, because it decides whether the year of manufacture has come.

Extension blocks beyond the declared number are read like the others, and the checksums of extension
blocks are looked at under neither policy.
-/

namespace VideoOutput.Edid

/-- What to do with a base block whose checksum is wrong or that declares missing extensions. -/
inductive ChecksumPolicy where
  | strict
  | lenient
  deriving DecidableEq

/-- The policy as it is written in settings. -/
def ChecksumPolicy.text : ChecksumPolicy → String
  | .strict => "strict"
  | .lenient => "lenient"

/-- Who a display is, as its identification data tell. -/
structure Identity where
  /-- Three letters. -/
  manufacturer : String
  productCode : UInt16
  serialNumber : UInt32
  manufactured : Option ManufactureDate
  version : UInt8
  revision : UInt8
  /-- The number of extension blocks that the base block declares. -/
  extensionCount : UInt8
  monitorName : String
  /-- The address from the last HDMI vendor block. -/
  address : Option PhysicalAddress
  /-- The display sits behind a repeater. -/
  isRepeater : Bool
  /-- The display has an HDMI vendor block. -/
  isHdmi : Bool
  /-- What the display accepts. The blob does not tell; the controller fills it in. -/
  resolutions : List Mode.Resolution
  deriving DecidableEq

namespace Identity

/-- Meet an HDMI vendor block. It writes three fields, each over what an earlier block wrote; that
they stay in step with one another is shown along the blocks, not built into the record. -/
def meetHdmi (identity : Identity) (address : PhysicalAddress) : Identity :=
  { identity with address := some address, isRepeater := address.b != 0, isHdmi := true }

/-- Meet an extension block with the HDMI vendor blocks in it. -/
def meetExtension (identity : Identity) (extension : Extension) : Identity :=
  extension.addresses.foldl meetHdmi identity

end Identity

/-- The fixed bytes at the start of a blob. -/
def header : List UInt8 :=
  [0x00, 0xFF, 0xFF, 0xFF, 0xFF, 0xFF, 0xFF, 0x00]

/-- The base block of a blob, if length and header are right. -/
def baseBlock (blob : List UInt8) : Except ReadError (List UInt8) :=
  if blob.length < blockLength then .error (.tooShort blob.length)
  else if blob.take 8 ≠ header then .error .badHeader
  else .ok (blob.take blockLength)

/-- The whole extension blocks of a blob. A partial block at the end does not count. -/
def extensionBlocks (blob : List UInt8) : List (List UInt8) :=
  Bytes.pieces blockLength (blob.length / blockLength - 1) (blob.drop blockLength)

/-- Check length, header and checksum without reading anything. -/
def validate (blob : List UInt8) : Except ReadError Unit :=
  match baseBlock blob with
  | .error e => .error e
  | .ok base =>
    if Bytes.sum base = 0 then .ok () else .error (.badChecksum 0 (Bytes.sum base))

/-- Five bits as a letter. -/
def letterOf (bits : Nat) : Char :=
  if 1 ≤ bits ∧ bits ≤ 26 then Char.ofNat (0x40 + bits) else '?'

/-- The three letters packed into two bytes. -/
def manufacturerOf (high low : UInt8) : String :=
  let packed := high.toNat * 256 + low.toNat
  String.ofList [letterOf (packed / 1024 % 32), letterOf (packed / 32 % 32), letterOf (packed % 32)]

/-- The four descriptors of a base block. -/
def baseDescriptors (base : List UInt8) : List (List UInt8) :=
  Bytes.pieces descriptorLength 4 (base.drop 0x36)

/-- The first fault among blocks counted from `index`. -/
def firstFault? (index : Nat) : List (List UInt8) → Option ReadError
  | [] => none
  | block :: rest =>
    match (Extension.ofBlock block).fault? with
    | some offset => some (.truncated index offset)
    | none => firstFault? (index + 1) rest

/-- What a base block tells before any extension block is met. -/
def Identity.ofBase (base : List UInt8) (currentYear : Nat) : Identity :=
  { manufacturer := manufacturerOf (Bytes.get base 0x08) (Bytes.get base 0x09)
    productCode := UInt16.ofNat (Bytes.toNatLE ((base.drop 0x0A).take 2))
    serialNumber := UInt32.ofNat (Bytes.toNatLE ((base.drop 0x0C).take 4))
    manufactured :=
      ManufactureDate.ofBytes? (Bytes.get base 0x10) (Bytes.get base 0x11) currentYear
    version := Bytes.get base 0x12
    revision := Bytes.get base 0x13
    extensionCount := Bytes.get base 0x7E
    monitorName := ""
    address := none
    isRepeater := false
    isHdmi := false
    resolutions := [] }

/-- What a base block and its extensions tell. The descriptors of the base block and of all
extension blocks are fed to one collector, and the name is what it holds in the end. -/
def identityOf (base : List UInt8) (extensions : List Extension) (currentYear : Nat) : Identity :=
  let descriptors := baseDescriptors base ++ extensions.flatMap Extension.descriptors
  { extensions.foldl Identity.meetExtension (Identity.ofBase base currentYear) with
    monitorName := (descriptors.foldl MonitorName.feed {}).finish }

/-- Read a blob under a policy, as seen in `currentYear`. -/
def decode (policy : ChecksumPolicy) (currentYear : Nat) (blob : List UInt8) :
    Except ReadError Identity :=
  match baseBlock blob with
  | .error e => .error e
  | .ok base =>
    let blocks := extensionBlocks blob
    let declared := Bytes.get base 0x7E
    if policy = .strict ∧ Bytes.sum base ≠ 0 then .error (.badChecksum 0 (Bytes.sum base))
    else if policy = .strict ∧ blocks.length < declared.toNat then
      .error (.missingExtensions declared blocks.length)
    else
      match firstFault? 1 blocks with
      | some e => .error e
      | none => .ok (identityOf base (blocks.map Extension.ofBlock) currentYear)

/-- The entries for blocks counted from `index`, up to the first fault. -/
def extensionsLog (index : Nat) : List (List UInt8) → List Log.Entry
  | [] => []
  | block :: rest =>
    let extension := Extension.ofBlock block
    extension.log index ++
      if extension.fault?.isSome then [] else extensionsLog (index + 1) rest

/-- The entries for what `decode` passes over in a blob. -/
def decodeLog (policy : ChecksumPolicy) (blob : List UInt8) : List Log.Entry :=
  match baseBlock blob with
  | .error _ => []
  | .ok base =>
    let blocks := extensionBlocks blob
    let declared := Bytes.get base 0x7E
    let sum := Bytes.sum base
    let isStrict := policy = .strict
    if isStrict ∧ sum ≠ 0 then []
    else
      (if sum ≠ 0 then
        [⟨.warn, "EDID base block checksum mismatch, decoding anyway",
          [("sum", .number sum.toNat)]⟩]
      else []) ++
      ManufactureDate.ofBytesLog (Bytes.get base 0x10) ++
      (if blob.length % blockLength ≠ 0 then
        [⟨.debug, "ignoring trailing partial EDID block", [("len", .number blob.length)]⟩]
      else []) ++
      if blocks.length < declared.toNat then
        if isStrict then []
        else
          ⟨.warn, "EDID is missing extension blocks",
            [("declared", .number declared.toNat), ("present", .number blocks.length)]⟩ ::
          extensionsLog 1 blocks
      else extensionsLog 1 blocks

end VideoOutput.Edid
