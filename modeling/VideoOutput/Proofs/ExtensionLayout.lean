import VideoOutput.Proofs.BlobLayout
import VideoOutput.Proofs.DataArea

/-!
# The layout of drafted extension blocks

What a drafted extension block holds and where, and what a reader finds in it. The steps of a draft
name its data blocks and descriptors (`data_ofSteps`, `descriptors_ofSteps`); the block holds the
data, cut to their room, then the descriptors that still fit, and zeros (`toList_block`). A reader
cuts the data into data blocks and takes the zeros for further descriptors, which carry nothing
(`ofBlock_block`, `foldl_feed_zeros`).

The two kinds of content are cut differently and the lemmas keep them apart. Data are bytes to the
draft: beyond 123 of them the rest is left out, wherever that falls, and a data block can be cut in
its middle. Descriptors are units: one is stored whole or not at all. The module on over-long drafts
says what a reader makes of the first kind; here only the layout is fixed.

A reader does not know how many descriptors were stored. It takes all that fit between the end of
the data and the checksum, so it reads some of the zeros as descriptors as well. A descriptor of
zeros is one with no name and no text, and feeding it to the identity changes nothing.
-/

namespace VideoOutput.Edid

namespace CeaDraft

open DataBlock (Content)

/-! ## What the steps name -/

/-- The data block that a step adds. -/
def Step.content? : Step → Option Content
  | .dataBlock tag payload => some (.ofGiven tag payload)
  | .hdmi address => some (.ofGiven (UInt8.ofNat vendorTag) (DataBlock.hdmiPayload address))
  | _ => none

/-- The descriptor that a step adds. -/
def Step.descriptor? : Step → Option Descriptor
  | .descriptor d => some d
  | _ => none

/-- The address that a step adds, in a data block of its own or in one that happens to be an HDMI
vendor block. -/
def Step.address? : Step → Option PhysicalAddress
  | .dataBlock tag payload => (Content.ofGiven tag payload).address?
  | .hdmi p => some ⟨p.a % 16, p.b % 16, p.c % 16, p.d % 16⟩
  | _ => none

/-- The data blocks that the steps add. -/
def contents (steps : List Step) : List Content :=
  steps.filterMap Step.content?

/-- Steps only ever add to the data, each behind what is there. -/
theorem data_foldl (steps : List Step) (draft : CeaDraft) :
    (steps.foldl apply draft).data = draft.data ++ (contents steps).flatMap Content.bytes := by
  induction steps generalizing draft with
  | nil => simp [contents]
  | cons step steps ih =>
    rw [List.foldl_cons, ih]
    cases step with
    | revision revision => rfl
    | descriptor d => rfl
    | dataBlock tag payload => exact List.append_assoc _ _ _
    | hdmi address => exact List.append_assoc _ _ _

/-- The data of a draft are the contents of its steps in their order. -/
theorem data_ofSteps (steps : List Step) :
    (ofSteps steps).data = (contents steps).flatMap Content.bytes :=
  data_foldl steps {}

theorem descriptors_foldl (steps : List Step) (draft : CeaDraft) :
    (steps.foldl apply draft).descriptors =
      draft.descriptors ++ steps.filterMap Step.descriptor? := by
  induction steps generalizing draft with
  | nil => simp
  | cons step steps ih =>
    rw [List.foldl_cons, ih]
    cases step with
    | revision revision => rfl
    | descriptor d => exact List.append_assoc _ _ _
    | dataBlock tag payload => rfl
    | hdmi address => rfl

/-- The descriptors of a draft are those that its steps name, in their order. -/
theorem descriptors_ofSteps (steps : List Step) :
    (ofSteps steps).descriptors = steps.filterMap Step.descriptor? :=
  descriptors_foldl steps {}

/-- Two half bytes that are packed into one are found again. -/
theorem packed_div_mod (x y : UInt8) :
    (x % 16 * 16 + y % 16) / 16 = x % 16 ∧ (x % 16 * 16 + y % 16) % 16 = y % 16 := by
  have hx := x.toNat_lt
  have hy := y.toNat_lt
  constructor
  · apply UInt8.toNat_inj.mp
    simp only [UInt8.toNat_div, UInt8.toNat_add, UInt8.toNat_mul, UInt8.toNat_mod,
      UInt8.reduceToNat]
    omega
  · apply UInt8.toNat_inj.mp
    simp only [UInt8.toNat_add, UInt8.toNat_mul, UInt8.toNat_mod, UInt8.reduceToNat]
    omega

/-- Of every component of an address the lower half byte is read. -/
theorem ofBytes_toBytes (p : PhysicalAddress) :
    PhysicalAddress.ofBytes (p.a % 16 * 16 + p.b % 16) (p.c % 16 * 16 + p.d % 16) =
      ⟨p.a % 16, p.b % 16, p.c % 16, p.d % 16⟩ := by
  rw [PhysicalAddress.ofBytes, (packed_div_mod p.a p.b).1, (packed_div_mod p.a p.b).2,
    (packed_div_mod p.c p.d).1, (packed_div_mod p.c p.d).2]

/-- A step names an address exactly if the content that it adds does. -/
theorem address?_eq (step : Step) : step.address? = step.content?.bind Content.address? := by
  cases step with
  | revision revision => rfl
  | descriptor d => rfl
  | dataBlock tag payload => rfl
  | hdmi p => exact congrArg some (ofBytes_toBytes p).symm

/-- The addresses in the data blocks are those that the steps add. -/
theorem filterMap_address?_contents (steps : List Step) :
    (contents steps).filterMap Content.address? = steps.filterMap Step.address? := by
  have hstep : Step.address? = fun step => step.content?.bind Content.address? :=
    funext address?_eq
  rw [contents, List.filterMap_filterMap, hstep]

/-! ## What the block holds -/

variable (draft : CeaDraft)

/-- The data as they are stored. -/
def area (draft : CeaDraft) : List UInt8 :=
  draft.data.take 123

/-- The descriptors that are stored: as many as fit behind the data. -/
def stored (draft : CeaDraft) : List Descriptor :=
  draft.descriptors.take ((123 - draft.area.length) / 18)

/-- The number of bytes behind the descriptors. -/
def spare (draft : CeaDraft) : Nat :=
  123 - draft.area.length - 18 * draft.stored.length

/-- The data take 123 bytes at most: what is behind is cut off. -/
theorem length_area_le : draft.area.length ≤ 123 :=
  List.length_take_le 123 draft.data

/-- No more descriptors are stored than fit behind the data. -/
theorem length_stored_le : draft.stored.length ≤ (123 - draft.area.length) / 18 :=
  List.length_take_le _ draft.descriptors

/-- The body is the header, the data, the descriptors and zeros, in this order. -/
theorem body_eq :
    draft.body = [ceaTag, draft.revision, UInt8.ofNat (4 + draft.area.length), 0] ++
      (draft.area ++ (draft.stored.flatMap Vector.toList ++ List.replicate draft.spare 0)) := by
  have harea := draft.length_area_le
  have hstored := draft.length_stored_le
  have hd : checksumOffset - (dataStart + draft.area.length) = 123 - draft.area.length := by
    unfold checksumOffset dataStart
    omega
  -- the body with its offsets written out; the length tells how many zeros are filled in
  have hdef : draft.body = Bytes.fit checksumOffset
      ([ceaTag, draft.revision, UInt8.ofNat (dataStart + draft.area.length), 0] ++ draft.area ++
        (draft.descriptors.take
          ((checksumOffset - (dataStart + draft.area.length)) / descriptorLength)).flatMap
          Vector.toList) := by
    rw [← storedFrom_eq_take]
    rfl
  rw [hd] at hdef
  have hlength : ([ceaTag, draft.revision, UInt8.ofNat (dataStart + draft.area.length), 0] ++
      draft.area ++ draft.stored.flatMap Vector.toList).length =
        4 + draft.area.length + 18 * draft.stored.length := by
    simp only [List.length_append, Bytes.length_flatMap_toList]
    rfl
  have hspare : checksumOffset - (4 + draft.area.length + 18 * draft.stored.length) =
      draft.spare := by
    unfold checksumOffset spare
    omega
  refine hdef.trans ((Bytes.fit_eq_append ?_).trans ?_)
  · rw [show descriptorLength = 18 from rfl, ← stored, hlength]
    unfold checksumOffset
    omega
  · rw [show descriptorLength = 18 from rfl, ← stored, hlength, hspare]
    simp only [List.append_assoc]
    rfl

/-- Tag, revision, the offset of the descriptors, the data, the descriptors, zeros, checksum. -/
theorem toList_block :
    draft.block.toList = [ceaTag, draft.revision, UInt8.ofNat (4 + draft.area.length), 0] ++
      (draft.area ++ (draft.stored.flatMap Vector.toList ++ (List.replicate draft.spare 0 ++
        [0 - Bytes.sum draft.body]))) := by
  have hsealed : draft.block.toList = draft.body ++ [0 - Bytes.sum draft.body] := rfl
  rw [hsealed]
  refine (congrArg (· ++ [0 - Bytes.sum draft.body]) draft.body_eq).trans ?_
  simp only [List.append_assoc]

theorem sum_block : Bytes.sum draft.block.toList = 0 :=
  sum_sealed draft.body

/-! ## What a reader finds -/

theorem get_block_two : (Bytes.get draft.block.toList 2).toNat = 4 + draft.area.length := by
  have harea := draft.length_area_le
  have hget : Bytes.get draft.block.toList 2 = UInt8.ofNat (4 + draft.area.length) := by
    rw [toList_block]
    rfl
  rw [hget, UInt8.toNat_ofNat', Nat.mod_eq_of_lt (by omega)]

theorem dataEnd_block : dataEnd draft.block.toList = 4 + draft.area.length :=
  draft.get_block_two

theorem drop_four_block :
    draft.block.toList.drop 4 = draft.area ++ (draft.stored.flatMap Vector.toList ++
      (List.replicate draft.spare 0 ++ [0 - Bytes.sum draft.body])) := by
  rw [toList_block]
  rfl

/-- The area of the data blocks holds the data. -/
theorem area_block :
    (draft.block.toList.take (4 + draft.area.length)).drop 4 = draft.area := by
  rw [List.drop_take, drop_four_block, Nat.add_sub_cancel_left]
  exact List.take_left' rfl

/-- What is behind the data: the descriptors, zeros and the checksum. -/
theorem drop_block :
    draft.block.toList.drop (4 + draft.area.length) =
      draft.stored.flatMap Vector.toList ++ (List.replicate draft.spare 0 ++
        [0 - Bytes.sum draft.body]) := by
  rw [← List.drop_drop, drop_four_block]
  exact List.drop_left' rfl

/-- Behind the stored descriptors zeros are found. -/
theorem descriptorsFrom_block :
    Extension.descriptorsFrom draft.block.toList (4 + draft.area.length) =
      draft.stored.map Vector.toList ++
        List.replicate ((123 - draft.area.length) / 18 - draft.stored.length)
          (List.replicate 18 0) := by
  have hstored := draft.length_stored_le
  have hcount : (checksumOffset - (4 + draft.area.length)) / descriptorLength =
      draft.stored.length + ((123 - draft.area.length) / 18 - draft.stored.length) := by
    unfold checksumOffset descriptorLength
    omega
  have hspare : 18 * ((123 - draft.area.length) / 18 - draft.stored.length) ≤ draft.spare := by
    unfold spare
    omega
  rw [Extension.descriptorsFrom_eq_pieces, drop_block, hcount]
  exact (Bytes.pieces_flatMap_toList draft.stored _ _).trans
    (congrArg _ (Bytes.pieces_replicate_zero hspare _))

/-- A reader of the block finds the data blocks of the area, whole or cut, the stored descriptors
and blank ones in the rest. -/
theorem ofBlock_block (h : draft.revision = ceaRevision) :
    Extension.ofBlock draft.block.toList =
      .filled (DataBlock.split 4 draft.area).1 (DataBlock.split 4 draft.area).2
        (draft.stored.map Vector.toList ++
          List.replicate ((123 - draft.area.length) / 18 - draft.stored.length)
            (List.replicate 18 0)) := by
  have harea := draft.length_area_le
  have htag : Bytes.get draft.block.toList 0 = ceaTag := by
    rw [toList_block]
    rfl
  have hrevision : Bytes.get draft.block.toList 1 = ceaRevision := by
    rw [toList_block, h]
    rfl
  have hrange : ¬ (4 + draft.area.length < dataStart ∨ checksumOffset < 4 + draft.area.length) := by
    unfold dataStart checksumOffset
    omega
  unfold Extension.ofBlock
  dsimp only
  rw [get_block_two, if_neg (not_not_intro htag), if_neg (not_not_intro hrevision),
    if_neg (by omega), if_neg hrange, descriptorsFrom_block]
  rw [show dataStart = 4 from rfl, area_block]

/-- Descriptors of zeros add nothing to a name. -/
theorem foldl_feed_zeros (name : MonitorName) (n : Nat) :
    (List.replicate n (List.replicate 18 0)).foldl MonitorName.feed name = name := by
  induction n with
  | zero => rfl
  | succ n ih =>
    rw [List.replicate_succ, List.foldl_cons]
    exact ih

end CeaDraft

end VideoOutput.Edid
