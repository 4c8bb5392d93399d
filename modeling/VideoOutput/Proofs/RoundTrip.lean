import VideoOutput.Proofs.ExtensionLayout
import VideoOutput.Proofs.Reading

/-!
# Reading drafted extension blocks

What a reader makes of an extension block that was drafted. One extension block decides over a blob
that is valid in every other respect (`IsValidBut.decode_of_fault`,
`IsValidBut.decode_of_no_fault`). A block whose data blocks have room is read as it was drafted
(`decode_blob_of_room`). A block whose data blocks have too little room ends in a part of a data
block, and is refused for it unless the last one that fits ends where the room does
(`decode_of_too_little_room`).

How many of the given data blocks are whole in the area is said by `fittingContents`: as many from
the first one on as fit into 123 bytes. If these fill the area exactly, the cut falls between two
data blocks and nothing shows that more was given; otherwise the next header stands in the area and
announces a payload beyond its end. The offset that the refusal names is the one of this header.

Descriptors are treated as units, so a list of them that is too long loses its last ones and never
makes a block unreadable. Where there is room both statements are exact: the bytes of the block and
what is read from them are determined by the steps.
-/

namespace VideoOutput.Edid

/-! ## One extension block in question -/

/-- The validator accepts a blob, no declared extension block is missing, and nothing is wrong with
them but perhaps with block `n`. -/
structure IsValidBut (blob : List UInt8) (n : Nat) : Prop where
  validate_eq : validate blob = .ok ()
  declared_le : (Bytes.get blob 0x7E).toNat ≤ blob.length / 128 - 1
  others : ∀ k, HasExtension blob k → k ≠ n → IsRead (blockAt blob k) → WellFormed (blockAt blob k)

variable {blob : List UInt8} {n : Nat}

/-- A blob is valid if its base block has its header and its sum. -/
theorem validate_eq_ok_iff :
    validate blob = .ok () ↔
      baseBlock blob = .ok (blob.take blockLength) ∧ Bytes.sum (blob.take blockLength) = 0 := by
  unfold validate
  rcases baseBlock_cases blob with ⟨-, hb⟩ | ⟨-, -, hb⟩ | ⟨-, -, hb⟩
  · simp [hb]
  · simp [hb]
  · simp [hb]

namespace IsValidBut

/-- Under both policies only the extension blocks are left to decide. -/
theorem decode_eq (h : IsValidBut blob n) (policy : ChecksumPolicy) (currentYear : Nat) :
    decode policy currentYear blob =
      match firstFault? 1 (extensionBlocks blob) with
      | some e => .error e
      | none => .ok (identityOf (blob.take blockLength)
          ((extensionBlocks blob).map Extension.ofBlock) currentYear) := by
  obtain ⟨hbase, hsum⟩ := validate_eq_ok_iff.mp h.validate_eq
  have hdeclared : ¬ (extensionBlocks blob).length <
      (Bytes.get (blob.take blockLength) 0x7E).toNat := by
    rw [length_extensionBlocks, get_take_blockLength blob (by decide)]
    exact Nat.not_lt.mpr h.declared_le
  unfold decode
  rw [hbase]
  dsimp only
  exact (if_neg fun hwrong => hwrong.2 hsum).trans (if_neg fun hmissing => hdeclared hmissing.2)

/-- A fault in the one block that is in question is what both policies refuse the blob for. -/
theorem decode_of_fault (h : IsValidBut blob n) (hn : HasExtension blob n) {o : Nat}
    (hfault : (Extension.ofBlock (blockAt blob n)).fault? = some o) (policy : ChecksumPolicy)
    (currentYear : Nat) : decode policy currentYear blob = .error (.truncated n o) := by
  obtain ⟨hread, hat⟩ := (fault?_eq_some_iff (length_blockAt hn)).mp hfault
  have hfirst : FirstFaultAt blob n o :=
    ⟨hn, hread, hat.not_wellFormed, hat, fun k hk hlt => h.others k hk (Nat.ne_of_lt hlt)⟩
  rw [h.decode_eq]
  rcases firstFault?_extensionBlocks blob with ⟨hreadable, -⟩ | ⟨n', o', hfirst', heq⟩
  · exact absurd hreadable hfirst.not_isReadable
  · obtain ⟨rfl, rfl⟩ := hfirst.unique hfirst'
    rw [heq]

theorem decode_of_no_fault (h : IsValidBut blob n)
    (hfault : HasExtension blob n → (Extension.ofBlock (blockAt blob n)).fault? = none)
    (policy : ChecksumPolicy) (currentYear : Nat) :
    decode policy currentYear blob = .ok (identityOf (blob.take blockLength)
      ((extensionBlocks blob).map Extension.ofBlock) currentYear) := by
  have hreadable : IsReadable blob := by
    intro k hk
    by_cases hkn : k = n
    · subst hkn
      exact (fault?_eq_none_iff (length_blockAt hk)).mp (hfault hk)
    · exact h.others k hk hkn
  rw [h.decode_eq]
  rcases firstFault?_extensionBlocks blob with ⟨-, heq⟩ | ⟨n', o', hfirst, -⟩
  · rw [heq]
  · exact absurd hreadable hfirst.not_isReadable

end IsValidBut

/-- If only one extension block has HDMI addresses, they are all that a blob has. -/
theorem flatMap_addresses_eq (hn : HasExtension blob n)
    (h : ∀ k, HasExtension blob k → k ≠ n → (Extension.ofBlock (blockAt blob k)).addresses = []) :
    ((extensionBlocks blob).map Extension.ofBlock).flatMap Extension.addresses =
      (Extension.ofBlock (blockAt blob n)).addresses := by
  have hmem : n ∈ List.range' 1 (blob.length / 128 - 1) :=
    List.mem_range'_1.mpr (hasExtension_iff.mp hn)
  obtain ⟨before, behind, hsplit⟩ := List.append_of_mem hmem
  have hnodup : (before ++ n :: behind).Nodup := hsplit ▸ List.nodup_range'
  obtain ⟨-, hbehind, hbefore⟩ := List.nodup_append.mp hnodup
  -- the blocks before and behind `n` have another number, so they have no address
  have hnone : ∀ k ∈ before ++ n :: behind, k ≠ n →
      (Extension.ofBlock (blockAt blob k)).addresses = [] := by
    intro k hk hkn
    rw [← hsplit, List.mem_range'_1] at hk
    exact h k (hasExtension_iff.mpr hk) hkn
  have hfirst : before.flatMap (fun k => (Extension.ofBlock (blockAt blob k)).addresses) = [] := by
    refine List.flatMap_eq_nil_iff.mpr fun k hk => hnone k (by simp [hk]) ?_
    exact hbefore k hk n (List.mem_cons_self ..)
  have hlast : behind.flatMap (fun k => (Extension.ofBlock (blockAt blob k)).addresses) = [] := by
    refine List.flatMap_eq_nil_iff.mpr fun k hk => hnone k (by simp [hk]) ?_
    rintro rfl
    exact (List.nodup_cons.mp hbehind).1 hk
  rw [extensionBlocks_eq, List.map_map, List.flatMap_map, hsplit, List.flatMap_append,
    List.flatMap_cons]
  exact (congrArg₂ (fun first last => first ++ (_ ++ last)) hfirst hlast).trans
    (List.append_nil _)

/-- A drafted blob with one extension block is valid but perhaps for that block. -/
theorem Draft.isValidBut_blob {draft : Draft} {block : Block} (h : draft.extensions = [block])
    (hc : draft.isCorrupt = false) :
    HasExtension draft.blob 1 ∧ blockAt draft.blob 1 = block.toList ∧ IsValidBut draft.blob 1 := by
  have hlength : draft.blob.length = 256 := by
    rw [length_blob, h]
    rfl
  have hblob : draft.blob = draft.base ++ block.toList := by
    rw [blob, h, List.flatMap_singleton]
  have hdeclared : Bytes.get draft.blob 0x7E = 1 := by
    rw [← get_take_blockLength draft.blob (by decide), take_blob, get_base_declared, h]
    rfl
  refine ⟨⟨Nat.le_refl 1, by omega⟩, ?_, ?_, ?_, ?_⟩
  · rw [blockAt, hblob, List.drop_left' draft.length_base]
    exact List.take_of_length_le (Nat.le_of_eq block.length_toList)
  · rw [validate_blob, hc]
    rfl
  · rw [hdeclared, hlength]
    decide
  · -- behind the base block is room for one block only
    intro k hk hk1
    obtain ⟨hpos, hend⟩ := hk
    omega

namespace CeaDraft

open DataBlock (Content)

/-! ## What a reader finds in the data -/

variable {draft : CeaDraft} {whole : List Content} {overrun : Option Nat}

/-- The first fault of a drafted block whose data start with whole data blocks is what comes behind
these. -/
theorem fault?_of_split (hrevision : draft.revision = ceaRevision)
    (hsplit : DataBlock.split 4 draft.area = (Content.placed 4 whole, overrun))
    (hlong : ∀ content ∈ whole, content.IsLongEnough) :
    (Extension.ofBlock draft.block.toList).fault? = overrun := by
  rw [ofBlock_block draft hrevision, hsplit]
  dsimp only [Extension.fault?]
  rw [Content.find?_isCutShort_placed hlong]

/-- The addresses that a reader finds are those of the whole data blocks. -/
theorem addresses_of_split (hrevision : draft.revision = ceaRevision)
    (hsplit : DataBlock.split 4 draft.area = (Content.placed 4 whole, overrun)) :
    (Extension.ofBlock draft.block.toList).addresses = whole.filterMap Content.address? := by
  rw [ofBlock_block draft hrevision, hsplit]
  exact Content.filterMap_address?_placed whole 4

variable {steps : List Step}

/-- Data that have room are not cut. -/
theorem area_of_room (hsize : Content.total (contents steps) ≤ 123) :
    (ofSteps steps).area = (contents steps).flatMap Content.bytes := by
  rw [area, data_ofSteps]
  exact List.take_of_length_le (by rw [Content.length_flatMap_bytes]; exact hsize)

theorem split_area_of_room (hsize : Content.total (contents steps) ≤ 123) :
    DataBlock.split 4 (ofSteps steps).area = (Content.placed 4 (contents steps), none) := by
  rw [area_of_room hsize, ← List.append_nil ((contents steps).flatMap _), Content.split_flatMap,
    Content.split_nil, List.append_nil]

/-- Data blocks with too little room are stored as far as the room goes. -/
theorem area_of_too_little_room (hsize : 123 < Content.total (contents steps))
    {next : Content} {rest : List Content} (hcontents : contents steps = whole ++ next :: rest)
    (hle : Content.total whole ≤ 123) (hlt : 123 < Content.total whole + next.size) :
    (ofSteps steps).area.length = 123 ∧
      (ofSteps steps).area =
        whole.flatMap Content.bytes ++ next.bytes.take (123 - Content.total whole) := by
  rw [area, data_ofSteps]
  constructor
  · rw [List.length_take, Content.length_flatMap_bytes]
    omega
  · rw [hcontents]
    exact Content.take_flatMap_bytes hle hlt

/-- A part of a data block is left over unless the last whole one ends where the room does. -/
theorem split_area_of_too_little_room (hsize : 123 < Content.total (contents steps))
    {next : Content} {rest : List Content} (hcontents : contents steps = whole ++ next :: rest)
    (hle : Content.total whole ≤ 123) (hlt : 123 < Content.total whole + next.size) :
    DataBlock.split 4 (ofSteps steps).area =
      (Content.placed 4 whole,
        if Content.total whole < 123 then some (4 + Content.total whole) else none) := by
  rw [(area_of_too_little_room hsize hcontents hle hlt).2, Content.split_flatMap]
  by_cases hpart : Content.total whole < 123
  · rw [Content.split_take next _ (by omega) (by omega), if_pos hpart, List.append_nil]
  · -- the room ends with a whole data block, so that of the next one nothing is left
    have hfull : 123 - Content.total whole = 0 := by omega
    rw [hfull, List.take_zero, Content.split_nil, if_neg hpart, List.append_nil]

/-! ## Data blocks that have room -/

/-- The descriptors that have room behind the data blocks. -/
def storedDescriptors (steps : List Step) : List Descriptor :=
  (steps.filterMap Step.descriptor?).take ((127 - 4 - Content.total (contents steps)) / 18)

/-- As many descriptors are stored as fit behind the data. -/
theorem stored_of_room (hsize : Content.total (contents steps) ≤ 123) :
    (ofSteps steps).stored = storedDescriptors steps := by
  rw [stored, area_of_room hsize, Content.length_flatMap_bytes, descriptors_ofSteps]
  rfl

/-- The bytes of a block whose data have room, up to the checksum. -/
theorem toList_block_of_room (hrevision : (ofSteps steps).revision = 3)
    (hsize : Content.total (contents steps) ≤ 123) :
    ∃ checksum, (ofSteps steps).block.toList =
      [0x02, 3, UInt8.ofNat (4 + Content.total (contents steps)), 0] ++
        (contents steps).flatMap Content.bytes ++
        (storedDescriptors steps).flatMap Vector.toList ++
        List.replicate
          (123 - Content.total (contents steps) - 18 * (storedDescriptors steps).length) 0 ++
        [checksum] := by
  refine ⟨0 - Bytes.sum (ofSteps steps).body, ?_⟩
  rw [toList_block, spare, stored_of_room hsize, area_of_room hsize, Content.length_flatMap_bytes,
    hrevision]
  simp only [List.append_assoc]
  rfl

/-- The stored descriptors are what an extension block adds to the name. -/
theorem foldl_feed_of_room (hrevision : (ofSteps steps).revision = 3)
    (hsize : Content.total (contents steps) ≤ 123) (name : MonitorName) :
    (Extension.ofBlock (ofSteps steps).block.toList).descriptors.foldl MonitorName.feed name =
      ((storedDescriptors steps).map Vector.toList).foldl MonitorName.feed name := by
  rw [ofBlock_block _ hrevision, Extension.descriptors, stored_of_room hsize, List.foldl_append,
    foldl_feed_zeros]

/-- **A block whose data blocks have room is read as it was drafted.** It sums to zero and holds the
data blocks, then the first descriptors, as many as have room, and nothing else. The strict policy
reads every drafted blob with a right checksum and this one extension block; the address is the last
one that the steps add, and the name is collected from the slots of the base block and then from the
stored descriptors. -/
theorem decode_blob_of_room (steps : List Step) (hrevision : (ofSteps steps).revision = 3)
    (hlong : ∀ content ∈ contents steps, content.IsLongEnough)
    (hsize : Content.total (contents steps) ≤ 123) :
    Bytes.sum (ofSteps steps).block.toList = 0 ∧
    (∃ checksum, (ofSteps steps).block.toList =
      [0x02, 3, UInt8.ofNat (4 + Content.total (contents steps)), 0] ++
        (contents steps).flatMap Content.bytes ++
        (storedDescriptors steps).flatMap Vector.toList ++
        List.replicate
          (123 - Content.total (contents steps) - 18 * (storedDescriptors steps).length) 0 ++
        [checksum]) ∧
    ∀ (draftSteps : List Draft.Step) (currentYear : Nat),
      Draft.Step.corruptChecksum ∉ draftSteps →
      (Draft.ofSteps draftSteps).extensions = [(ofSteps steps).block] →
      ∃ identity, decode .strict currentYear (Draft.ofSteps draftSteps).blob = .ok identity ∧
        identity.address = (steps.filterMap Step.address?).getLast? ∧
        (identity.isHdmi = true ↔ steps.filterMap Step.address? ≠ []) ∧
        (identity.isRepeater = true ↔
          ∃ p, (steps.filterMap Step.address?).getLast? = some p ∧ p.b ≠ 0) ∧
        identity.monitorName =
          ((((Draft.ofSteps draftSteps).slots.toList ++ storedDescriptors steps).map
            Vector.toList).foldl MonitorName.feed {}).finish := by
  refine ⟨sum_block _, toList_block_of_room hrevision hsize, ?_⟩
  intro draftSteps currentYear hcorrupt hextensions
  have hclean : (Draft.ofSteps draftSteps).isCorrupt = false := by
    rw [← Bool.not_eq_true, Draft.isCorrupt_ofSteps]
    exact hcorrupt
  have hsplit := split_area_of_room hsize
  obtain ⟨-, hblock, hvalid⟩ := Draft.isValidBut_blob hextensions hclean
  have hdecode := hvalid.decode_of_no_fault
    (fun _ => hblock ▸ fault?_of_split hrevision hsplit hlong) .strict currentYear
  rw [Draft.extensionBlocks_blob, hextensions, Draft.take_blob] at hdecode
  -- the extension block has the addresses of the data blocks, and they come from the steps
  have haddresses : (Extension.ofBlock (ofSteps steps).block.toList).addresses =
      steps.filterMap Step.address? :=
    (addresses_of_split hrevision hsplit).trans (filterMap_address?_contents steps)
  rw [List.map_singleton, List.map_singleton] at hdecode
  refine ⟨_, hdecode, ?_⟩
  have haddress : (identityOf (Draft.ofSteps draftSteps).base
      [Extension.ofBlock (ofSteps steps).block.toList] currentYear).address =
        (steps.filterMap Step.address?).getLast? := by
    rw [address_identityOf, List.flatMap_singleton, haddresses]
  refine ⟨haddress, ?_, ?_, ?_⟩
  · rw [(isInStep_identityOf _ _ _).isHdmi_iff, haddress, Ne, List.getLast?_eq_none_iff]
  · rw [(isInStep_identityOf _ _ _).isRepeater_iff, haddress]
  · rw [monitorName_identityOf, List.flatMap_singleton, List.foldl_append,
      foldl_feed_of_room hrevision hsize, Draft.baseDescriptors_base, List.map_append,
      List.foldl_append]

/-- Two HDMI vendor blocks, the first one given as a data block, and a descriptor with a name. -/
theorem decode_blob_of_two_addresses :
    ∃ steps : List Step,
      (ofSteps steps).revision = 3 ∧ (∀ content ∈ contents steps, content.IsLongEnough) ∧
      Content.total (contents steps) ≤ 123 ∧ Draft.Step.corruptChecksum ∉
        [.extension (ofSteps steps).block] ∧
      ∃ identity, decode .strict 2026
          (Draft.ofSteps [.extension (ofSteps steps).block]).blob = .ok identity ∧
        identity.address = some ⟨1, 2, 3, 0⟩ ∧ identity.isRepeater = true ∧
        identity.monitorName = "TV" := by
  obtain ⟨steps, hsteps⟩ : ∃ steps : List Step, steps =
      [.dataBlock 0xE3 [0x03, 0x0C, 0x00, 0x10, 0x00], .descriptor (.ofName [0x54, 0x56, 0x0A]),
        .hdmi ⟨0x21, 0x02, 0x13, 0⟩] := ⟨_, rfl⟩
  have hrevision : (ofSteps steps).revision = 3 := by
    subst hsteps
    rfl
  have hlong : ∀ content ∈ contents steps, content.IsLongEnough := by
    subst hsteps
    decide
  have hsize : Content.total (contents steps) ≤ 123 := by
    subst hsteps
    decide
  have haddress : (steps.filterMap Step.address?).getLast? = some ⟨1, 2, 3, 0⟩ := by
    subst hsteps
    decide
  obtain ⟨-, -, hread⟩ := decode_blob_of_room steps hrevision hlong hsize
  obtain ⟨identity, hdecode, hlast, -, hrepeater, hname⟩ :=
    hread [.extension (ofSteps steps).block] 2026 (by simp) rfl
  refine ⟨steps, hrevision, hlong, hsize, by simp, identity, hdecode, hlast.trans haddress,
    hrepeater.mpr ⟨_, haddress, by decide⟩, hname.trans ?_⟩
  subst hsteps
  decide

/-! ## Data blocks that have too little room -/

/-- The data blocks that have room, from the first one on. -/
def fittingContents (steps : List Step) : List Content :=
  Content.fitting 123 (contents steps)

/-- **A block whose data blocks have too little room ends in a part of one.** The area of the data
blocks takes all room: it holds the longest run of data blocks that has room, from the first one on,
and as much of the next one as there is room left. A blob that is valid but for this block is
refused for the part of a data block; only if none is left over it is read, with the address of the
last HDMI vendor block that has room. -/
theorem decode_of_too_little_room (steps : List Step) (hrevision : (ofSteps steps).revision = 3)
    (hlong : ∀ content ∈ contents steps, content.IsLongEnough)
    (hsize : 123 < Content.total (contents steps)) :
    (∀ start, start <+: fittingContents steps ↔
      start <+: contents steps ∧ Content.total start ≤ 123) ∧
    dataEnd (ofSteps steps).block.toList = 127 ∧
    (∃ next, fittingContents steps ++ [next] <+: contents steps ∧
      ((ofSteps steps).block.toList.take 127).drop 4 =
        (fittingContents steps).flatMap Content.bytes ++
          next.bytes.take (123 - Content.total (fittingContents steps))) ∧
    ∀ (policy : ChecksumPolicy) (currentYear : Nat) (blob : List UInt8) (n : Nat),
      HasExtension blob n → blockAt blob n = (ofSteps steps).block.toList → IsValidBut blob n →
      (Content.total (fittingContents steps) < 123 →
        decode policy currentYear blob =
          .error (.truncated n (4 + Content.total (fittingContents steps)))) ∧
      (Content.total (fittingContents steps) = 123 →
        ∃ identity, decode policy currentYear blob = .ok identity ∧
          ((∀ k, HasExtension blob k → k ≠ n →
              (Extension.ofBlock (blockAt blob k)).addresses = []) →
            identity.address =
              ((fittingContents steps).filterMap Content.address?).getLast?)) := by
  -- the area holds the data blocks that fit and a part of the next one, perhaps nothing of it
  obtain ⟨next, rest, hcontents, hle, hlt⟩ := Content.exists_next_fitting hsize
  rw [← fittingContents] at hcontents hle hlt
  have hlongFitting : ∀ content ∈ fittingContents steps, content.IsLongEnough := by
    intro content hmem
    refine hlong content ?_
    rw [hcontents]
    exact List.mem_append_left _ hmem
  obtain ⟨hfull, harea⟩ := area_of_too_little_room hsize hcontents hle hlt
  have hsplit := split_area_of_too_little_room hsize hcontents hle hlt
  have hfault := fault?_of_split hrevision hsplit hlongFitting
  refine ⟨fun start => Content.prefix_fitting_iff, ?_, ⟨next, ⟨rest, ?_⟩, ?_⟩, ?_⟩
  · rw [dataEnd_block, hfull]
  · rw [List.append_assoc]
    exact hcontents.symm
  · have hblock := (ofSteps steps).area_block
    rw [hfull] at hblock
    exact hblock.trans harea
  · intro policy currentYear blob n hn hblock hvalid
    rw [← hblock] at hfault
    -- a part of a header announces more than is there; without a part nothing shows
    refine ⟨fun hpart => ?_, fun hnone => ?_⟩
    · rw [if_pos hpart] at hfault
      exact hvalid.decode_of_fault hn hfault policy currentYear
    · rw [if_neg (Nat.not_lt.mpr (Nat.le_of_eq hnone.symm))] at hfault
      refine ⟨_, hvalid.decode_of_no_fault (fun _ => hfault) policy currentYear, fun hothers => ?_⟩
      rw [address_identityOf, flatMap_addresses_eq hn hothers, hblock,
        addresses_of_split hrevision hsplit]

/-- A fourth data block of 32 bytes behind an HDMI vendor block has too little room, and the blob is
refused for it, although the data blocks that have room hold an address. -/
theorem decode_of_fourth_long_block :
    ∃ steps : List Step,
      (ofSteps steps).revision = 3 ∧ (∀ content ∈ contents steps, content.IsLongEnough) ∧
      123 < Content.total (contents steps) ∧
      HasExtension (Draft.ofSteps [.extension (ofSteps steps).block]).blob 1 ∧
      blockAt (Draft.ofSteps [.extension (ofSteps steps).block]).blob 1 =
        (ofSteps steps).block.toList ∧
      IsValidBut (Draft.ofSteps [.extension (ofSteps steps).block]).blob 1 ∧
      decode .strict 2026 (Draft.ofSteps [.extension (ofSteps steps).block]).blob =
        .error (.truncated 1 106) ∧
      (fittingContents steps).filterMap Content.address? = [⟨1, 2, 3, 0⟩] := by
  obtain ⟨steps, hsteps⟩ : ∃ steps : List Step, steps =
      .hdmi ⟨1, 2, 3, 0⟩ :: List.replicate 4 (.dataBlock 2 (List.replicate 31 0)) := ⟨_, rfl⟩
  have hrevision : (ofSteps steps).revision = 3 := by
    subst hsteps
    rfl
  have hlong : ∀ content ∈ contents steps, content.IsLongEnough := by
    subst hsteps
    decide
  have hsize : 123 < Content.total (contents steps) := by
    subst hsteps
    decide
  have hfitting : Content.total (fittingContents steps) = 102 := by
    subst hsteps
    decide
  have haddress : (fittingContents steps).filterMap Content.address? = [⟨1, 2, 3, 0⟩] := by
    subst hsteps
    decide
  have hextensions : (Draft.ofSteps [.extension (ofSteps steps).block]).extensions =
      [(ofSteps steps).block] := rfl
  obtain ⟨hn, hblock, hvalid⟩ := Draft.isValidBut_blob hextensions rfl
  obtain ⟨-, -, -, hread⟩ := decode_of_too_little_room steps hrevision hlong hsize
  have hrefused := (hread .strict 2026 _ 1 hn hblock hvalid).1 (by omega)
  rw [hfitting] at hrefused
  exact ⟨steps, hrevision, hlong, hsize, hn, hblock, hvalid, hrefused, haddress⟩

end CeaDraft

end VideoOutput.Edid
