import Mathlib
import VideoOutput.Proofs.Reading

/-!
# The monitor name of a blob

The bytes of a name are spread over the name descriptors of a blob: those in the four slots of the
base block, and those in the extension blocks that are read. Here these bytes are found by their
offsets (`nameBytes`) and turned into a text as a whole (`nameText`): what is in front of the first
newline, without zeros, at most thirteen bytes of it, and without blanks at the end.

The reader takes in byte by byte instead and remembers whether a newline has come. `text_foldl_push`
is what it has kept after any bytes, and `finish_foldl_feed` the same for descriptors. With this
`monitorName_of_decode` is a statement about which descriptors a blob has (`descriptors_eq`).

The order of the conditions matters. A zero is passed over and does not count towards the thirteen
bytes, while a byte beyond the seven bits does and is shown as a question mark; a newline ends the
name for good, also for the descriptors behind it. Blanks are cut last, so a name of thirteen bytes
that ends in blanks is shorter than thirteen and nothing moves up for them.

In an extension block descriptors stand at strides of eighteen bytes from the end of the data, as
long as a whole one fits in front of the checksum (`strideOffsets`).
-/

namespace VideoOutput.Edid

/-! ## The name by offsets -/

/-- The offsets of the four descriptors of a base block. -/
def slotOffsets : List Nat := [0x36, 0x48, 0x5A, 0x6C]

/-- The offsets of the descriptors of an extension block: from the end of the data blocks on in steps
of 18, as far as a descriptor ends before the checksum. -/
def strideOffsets (block : List UInt8) : List Nat :=
  (List.range 128).filter fun o =>
    dataEnd block ≤ o ∧ (o - dataEnd block) % 18 = 0 ∧ o + 18 ≤ 127

/-- The descriptor at an offset carries a piece of a name. -/
def IsNameAt (block : List UInt8) (o : Nat) : Prop :=
  Bytes.get block o = 0 ∧ Bytes.get block (o + 1) = 0 ∧ Bytes.get block (o + 3) = 0xFC

instance (block : List UInt8) (o : Nat) : Decidable (IsNameAt block o) :=
  inferInstanceAs (Decidable (_ ∧ _ ∧ _))

instance (block : List UInt8) : Decidable (IsRead block) :=
  inferInstanceAs (Decidable (_ ∧ _ ∧ _))

/-- The piece of a name in the descriptor at an offset. -/
def nameBytesAt (block : List UInt8) (o : Nat) : List UInt8 :=
  if IsNameAt block o then (block.drop (o + 5)).take 13 else []

/-- The pieces of a name in an extension block. -/
def extensionNameBytes (block : List UInt8) : List UInt8 :=
  if IsRead block then (strideOffsets block).flatMap (nameBytesAt block) else []

/-- The pieces of a name in a blob: those in the base block, and those in the whole extension
blocks behind it. -/
def nameBytes (blob : List UInt8) : List UInt8 :=
  slotOffsets.flatMap (nameBytesAt blob) ++
    (List.range' 1 (blob.length / 128 - 1)).flatMap fun n => extensionNameBytes (blockAt blob n)

/-- The bytes that a name keeps of those collected: what is in front of the first newline, without
zeros, and at most thirteen of it. -/
def keptBytes (bytes : List UInt8) : List UInt8 :=
  ((bytes.takeWhile (· ≠ 0x0A)).filter (· ≠ 0)).take 13

/-- Bytes as a text. What is not ASCII becomes a question mark, and blanks at the end are dropped. -/
def asciiText (bytes : List UInt8) : String :=
  String.ofList (Text.trimEnd (bytes.map fun b => if 0x80 ≤ b then '?' else Char.ofNat b.toNat))

/-- The name that bytes tell. -/
def nameText (bytes : List UInt8) : String :=
  asciiText (keptBytes bytes)

/-! ## Collecting bytes -/

namespace MonitorName

/-- Behind the end of a name bytes do not count. -/
theorem foldl_push_ended (bytes text : List UInt8) :
    bytes.foldl push ⟨text, true⟩ = ⟨text, true⟩ := by
  induction bytes with
  | nil => rfl
  | cons b bytes ih =>
    rw [List.foldl_cons]
    exact ih

/-- What is kept after some bytes: up to a newline, without zeros, and as long as there is room. -/
theorem text_foldl_push (bytes text : List UInt8) (hroom : text.length ≤ 13) :
    (bytes.foldl push ⟨text, false⟩).text =
      (text ++ (bytes.takeWhile (· ≠ 0x0A)).filter (· ≠ 0)).take 13 := by
  -- byte by byte; a newline ends the name whether or not there is still room
  induction bytes generalizing text with
  | nil => simp [List.take_of_length_le hroom]
  | cons b bytes ih =>
    rw [List.foldl_cons]
    by_cases hend : b = 0x0A
    · subst hend
      rw [show push ⟨text, false⟩ 0x0A = ⟨text, true⟩ from rfl, foldl_push_ended]
      simp [List.take_of_length_le hroom]
    · rw [List.takeWhile_cons_of_pos (by simpa using hend)]
      by_cases hzero : b = 0
      · subst hzero
        rw [show push ⟨text, false⟩ 0 = ⟨text, false⟩ from rfl, ih text hroom,
          List.filter_cons_of_neg (by simp)]
      · rw [List.filter_cons_of_pos (by simpa using hzero)]
        by_cases hfull : text.length < 13
        · have hpush : push ⟨text, false⟩ b = ⟨text ++ [b], false⟩ := by
            simp [push, newline, nameLimit, hend, hzero, hfull]
          have hroom' : (text ++ [b]).length ≤ 13 := by
            rw [List.length_append, List.length_singleton]
            omega
          rw [hpush, ih _ hroom', List.append_assoc, List.singleton_append]
        · have hpush : push ⟨text, false⟩ b = ⟨text, false⟩ := by
            simp [push, newline, nameLimit, hend, hzero, hfull]
          have hlength : text.length = 13 := by omega
          rw [hpush, ih text hroom, List.take_append_of_le_length (Nat.le_of_eq hlength.symm),
            List.take_append_of_le_length (Nat.le_of_eq hlength.symm)]

end MonitorName

/-- The piece of a name in a descriptor. -/
def pieceOf (d : List UInt8) : List UInt8 :=
  if isNameDescriptor d then d.drop 5 else []

theorem foldl_feed (descriptors : List (List UInt8)) (name : MonitorName) :
    descriptors.foldl MonitorName.feed name =
      (descriptors.flatMap pieceOf).foldl MonitorName.push name := by
  induction descriptors generalizing name with
  | nil => rfl
  | cons d descriptors ih =>
    rw [List.foldl_cons, List.flatMap_cons, List.foldl_append, ih]
    congr 1
    unfold MonitorName.feed pieceOf
    split
    next => rfl
    next => rfl

/-- A byte outside of the seven bits is shown by a question mark. -/
theorem charOf_eq (b : UInt8) :
    MonitorName.charOf b = if 0x80 ≤ b then '?' else Char.ofNat b.toNat := by
  unfold MonitorName.charOf
  by_cases hascii : b < 128
  · rw [if_pos hascii, if_neg (UInt8.not_le.mpr hascii)]
  · rw [if_neg hascii, if_pos (UInt8.not_lt.mp hascii)]

/-- The name collected from descriptors is the one that their pieces tell. -/
theorem finish_foldl_feed (descriptors : List (List UInt8)) :
    (descriptors.foldl MonitorName.feed {}).finish = nameText (descriptors.flatMap pieceOf) := by
  have hkept := MonitorName.text_foldl_push (descriptors.flatMap pieceOf) [] (Nat.zero_le _)
  rw [List.nil_append] at hkept
  rw [foldl_feed, MonitorName.finish, hkept, nameText, keptBytes, asciiText, funext charOf_eq]

/-! ## What a name consists of -/

theorem trimEnd_prefix (cs : List Char) : Text.trimEnd cs <+: cs := by
  have hsuffix := List.dropWhile_suffix (l := cs.reverse) Text.isBlank
  have hprefix := List.reverse_prefix.mpr hsuffix
  rw [List.reverse_reverse] at hprefix
  exact hprefix

/-- The character of a byte of seven bits has the number that the byte has. -/
theorem toNat_charOf {b : UInt8} (h : b < 128) : (MonitorName.charOf b).toNat = b.toNat := by
  have hsmall : b.toNat < 128 := UInt8.lt_iff_toNat_lt.mp h
  have hvalid : b.toNat.isValidChar := .inl (by omega)
  rw [MonitorName.charOf, if_pos h, Char.ofNat, dif_pos hvalid]
  rfl

/-- The character of a byte that is no zero and no newline. -/
theorem charOf_spec {b : UInt8} (hzero : b ≠ 0) (hend : b ≠ 0x0A) :
    (MonitorName.charOf b).toNat < 128 ∧ MonitorName.charOf b ≠ '\x00' ∧
      MonitorName.charOf b ≠ '\n' := by
  by_cases hlow : b < 128
  · have hnumber := toNat_charOf hlow
    refine ⟨hnumber ▸ UInt8.lt_iff_toNat_lt.mp hlow, ?_, ?_⟩
    · intro heq
      rw [heq] at hnumber
      exact hzero (UInt8.toNat_inj.mp hnumber.symm)
    · intro heq
      rw [heq] at hnumber
      exact hend (UInt8.toNat_inj.mp hnumber.symm)
  · rw [MonitorName.charOf, if_neg hlow]
    decide

/-- A plain character takes one byte. -/
theorem length_ofString_of_ascii {s : String} (h : ∀ c ∈ s.toList, c.toNat < 128) :
    (Bytes.ofString s).length = s.toList.length := by
  have hone : ∀ c ∈ s.toList, (String.utf8EncodeChar c).length = 1 := by
    intro c hc
    have hsmall : c.val ≤ 127 := UInt32.le_iff_toNat_le.mpr (Nat.le_of_lt_succ (h c hc))
    rw [String.length_utf8EncodeChar, Char.utf8Size_eq_one_iff.mpr hsmall]
  rw [Bytes.ofString, List.length_flatMap, List.map_eq_replicate_iff.mpr hone,
    List.sum_replicate_nat, Nat.mul_one]

/-- The text is a front part of the kept bytes, each as its character. -/
theorem toList_nameText (bytes : List UInt8) :
    (nameText bytes).toList <+: (keptBytes bytes).map MonitorName.charOf := by
  rw [nameText, asciiText, String.toList_ofList, funext charOf_eq]
  exact trimEnd_prefix _

/-- Whatever the bytes, a name consists of plain characters and is short. -/
theorem nameText_spec (bytes : List UInt8) :
    (∀ c ∈ (nameText bytes).toList, c.toNat < 128 ∧ c ≠ '\x00' ∧ c ≠ '\n') ∧
      (Bytes.ofString (nameText bytes)).length ≤ 13 := by
  have hplain : ∀ c ∈ (nameText bytes).toList, c.toNat < 128 ∧ c ≠ '\x00' ∧ c ≠ '\n' := by
    intro c hc
    obtain ⟨b, hb, rfl⟩ := List.mem_map.mp ((toList_nameText bytes).subset hc)
    obtain ⟨hfront, hzero⟩ := List.mem_filter.mp (List.mem_of_mem_take hb)
    have hend := List.mem_takeWhile_imp hfront
    exact charOf_spec (by simpa using hzero) (by simpa using hend)
  refine ⟨hplain, ?_⟩
  rw [length_ofString_of_ascii fun c hc => (hplain c hc).1]
  refine (toList_nameText bytes).length_le.trans ?_
  rw [List.length_map]
  exact List.length_take_le 13 _

/-! ## The descriptors of a blob -/

/-- The descriptor of a block at an offset. -/
def descriptorAt (block : List UInt8) (o : Nat) : List UInt8 :=
  (block.drop o).take 18

/-- A byte of a stretch is a byte of the whole. -/
theorem get_take_drop (bytes : List UInt8) (o : Nat) {i n : Nat} (hi : i < n) :
    Bytes.get ((bytes.drop o).take n) i = Bytes.get bytes (o + i) := by
  unfold Bytes.get
  rw [List.getD_eq_getElem?_getD, List.getD_eq_getElem?_getD, List.getElem?_take_of_lt hi,
    List.getElem?_drop]

/-- The reader takes those descriptors for names that begin like one. -/
theorem isNameDescriptor_descriptorAt (block : List UInt8) (o : Nat) :
    isNameDescriptor (descriptorAt block o) = true ↔ IsNameAt block o := by
  unfold isNameDescriptor IsNameAt descriptorAt
  rw [get_take_drop block o (by decide), get_take_drop block o (by decide),
    get_take_drop block o (by decide)]
  simp [nameTag, and_assoc]

/-- What the reader takes from such a descriptor are its thirteen bytes. -/
theorem pieceOf_descriptorAt (block : List UInt8) (o : Nat) :
    pieceOf (descriptorAt block o) = nameBytesAt block o := by
  have hdrop : (descriptorAt block o).drop 5 = (block.drop (o + 5)).take 13 := by
    rw [descriptorAt, List.drop_take, List.drop_drop]
  unfold pieceOf nameBytesAt
  simp only [isNameDescriptor_descriptorAt, hdrop]

theorem descriptorAt_take (blob : List UInt8) {o n : Nat} (h : o + 18 ≤ n) :
    descriptorAt (blob.take n) o = descriptorAt blob o := by
  rw [descriptorAt, descriptorAt, List.drop_take, List.take_take, Nat.min_eq_left (by omega)]

/-- The base block has its four descriptors at the four offsets. -/
theorem baseDescriptors_eq (blob : List UInt8) :
    baseDescriptors (blob.take blockLength) = slotOffsets.map (descriptorAt blob) := by
  have hpieces : baseDescriptors (blob.take blockLength) =
      slotOffsets.map (descriptorAt (blob.take blockLength)) := by
    rw [baseDescriptors, pieces_eq_map]
    simp only [List.drop_drop]
    rfl
  rw [hpieces]
  apply List.map_congr_left
  intro o ho
  refine descriptorAt_take blob ?_
  revert o
  decide

/-- The offsets of the descriptors are multiples of 18 behind the data blocks. -/
theorem strideOffsets_eq (block : List UInt8) :
    strideOffsets block =
      (List.range ((127 - dataEnd block) / 18)).map fun i => dataEnd block + 18 * i := by
  unfold strideOffsets
  generalize dataEnd block = d
  -- both lists go upwards and have the same members
  have hfilter := (List.pairwise_lt_range (n := 128)).filter
    fun o => decide (d ≤ o ∧ (o - d) % 18 = 0 ∧ o + 18 ≤ 127)
  have hmap : ((List.range ((127 - d) / 18)).map fun i => d + 18 * i).Pairwise (· < ·) := by
    rw [List.pairwise_map]
    refine List.pairwise_lt_range.imp ?_
    intro i j hij
    omega
  refine List.Perm.eq_of_pairwise (fun a b _ _ hab hba => by omega) hfilter hmap ?_
  rw [List.perm_ext_iff_of_nodup (hfilter.imp Nat.ne_of_lt) (hmap.imp Nat.ne_of_lt)]
  intro o
  simp only [List.mem_filter, List.mem_range, decide_eq_true_eq, List.mem_map]
  constructor
  · rintro ⟨-, hle, hmod, hend⟩
    exact ⟨(o - d) / 18, by omega, by omega⟩
  · rintro ⟨i, hi, rfl⟩
    omega

/-- An extension block has its descriptors at the strides behind the data. -/
theorem descriptorsFrom_eq (block : List UInt8) :
    Extension.descriptorsFrom block (dataEnd block) =
      (strideOffsets block).map (descriptorAt block) := by
  rw [Extension.descriptorsFrom_eq_pieces, pieces_eq_map, strideOffsets_eq, List.map_map]
  simp only [List.drop_drop]
  rfl

/-- A block that is read has its descriptors behind the data blocks, -/
theorem descriptors_of_isRead {block : List UInt8} (h : IsRead block)
    (hrange : 4 ≤ dataEnd block ∧ dataEnd block ≤ 127) :
    (Extension.ofBlock block).descriptors = (strideOffsets block).map (descriptorAt block) := by
  rw [ofBlock_of_isRead h, if_pos hrange, Extension.descriptors, descriptorsFrom_eq]

/-- and one that is not read has none. -/
theorem descriptors_of_not_isRead {block : List UInt8} (h : ¬ IsRead block) :
    (Extension.ofBlock block).descriptors = [] := by
  rcases ofBlock_of_not_isRead h with ⟨tag, heq⟩ | ⟨revision, heq⟩ | heq
  · rw [heq]
    rfl
  · rw [heq]
    rfl
  · rw [heq]
    rfl

/-- The pieces of a name that a reader finds in an extension block without a fault. -/
theorem flatMap_pieceOf_descriptors {block : List UInt8} (h : IsRead block → WellFormed block) :
    (Extension.ofBlock block).descriptors.flatMap pieceOf = extensionNameBytes block := by
  unfold extensionNameBytes
  by_cases hread : IsRead block
  · obtain ⟨hmin, hmax, -⟩ := h hread
    rw [descriptors_of_isRead hread ⟨hmin, hmax⟩, if_pos hread, List.flatMap_map]
    simp only [pieceOf_descriptorAt]
  · rw [descriptors_of_not_isRead hread, if_neg hread, List.flatMap_nil]

/-- In a blob that is readable a reader finds the pieces of a name at their offsets. -/
theorem IsReadable.flatMap_pieceOf {blob : List UInt8} (h : IsReadable blob) :
    (baseDescriptors (blob.take blockLength) ++
      ((extensionBlocks blob).map Extension.ofBlock).flatMap Extension.descriptors).flatMap
        pieceOf = nameBytes blob := by
  rw [List.flatMap_append, nameBytes, baseDescriptors_eq, extensionBlocks_eq, List.flatMap_map,
    List.map_map, List.flatMap_map, List.flatMap_assoc]
  simp only [pieceOf_descriptorAt]
  congr 1
  apply List.flatMap_congr
  intro n hn
  rw [List.mem_range'_1, ← hasExtension_iff] at hn
  exact flatMap_pieceOf_descriptors (h n hn)

/-- **The monitor name of a blob.** Whatever the policy, in a blob that is accepted the name is what
the bytes of its name descriptors tell, those in the slots of the base block before those in the
extension blocks. It consists of ASCII characters other than zero and newline and has at most
thirteen bytes. -/
theorem monitorName_of_decode {policy : ChecksumPolicy} {currentYear : Nat} {blob : List UInt8}
    {identity : Identity} (h : decode policy currentYear blob = .ok identity) :
    identity.monitorName = nameText (nameBytes blob) ∧
      (∀ c ∈ identity.monitorName.toList, c.toNat < 128 ∧ c ≠ '\x00' ∧ c ≠ '\n') ∧
      (Bytes.ofString identity.monitorName).length ≤ 13 := by
  obtain ⟨hreadable, hidentity⟩ := identity_of_decode h
  have hname : identity.monitorName = nameText (nameBytes blob) := by
    rw [hidentity, ← hreadable.flatMap_pieceOf]
    exact finish_foldl_feed _
  rw [hname]
  exact ⟨rfl, nameText_spec _⟩

set_option maxRecDepth 4000 in
/-- A name that starts in the last slot of the base block, with a zero in it, and ends in an
extension block. What comes behind its newline does not count. -/
theorem monitorName_of_spread_name :
    ∃ blob identity, decode .lenient 2026 blob = .ok identity ∧
      nameBytes blob = [0x4C, 0x69, 0x76, 0, 0x69, 0x6E, 0x67, 0x20, 0x52, 0, 0, 0, 0,
        0x6F, 0x6F, 0x6D, 0xC9, 0x20, 0x0A, 0x58, 0, 0, 0, 0, 0, 0] ∧
      identity.monitorName = nameText (nameBytes blob) ∧
      identity.monitorName = "Living Room?" := by
  obtain ⟨blob, hblob⟩ : ∃ blob, blob = header ++ List.replicate 100 0 ++
      [0, 0, 0, 0xFC, 0, 0x4C, 0x69, 0x76, 0, 0x69, 0x6E, 0x67, 0x20, 0x52, 0, 0, 0, 0, 0, 0] ++
      ([0x02, 3, 4, 0, 0, 0, 0, 0xFC, 0, 0x6F, 0x6F, 0x6D, 0xC9, 0x20, 0x0A, 0x58] ++
        List.replicate 112 0) := ⟨_, rfl⟩
  have hread : (decode .lenient 2026 blob).toOption.isSome = true := by
    subst hblob
    cbv
  have hbytes : nameBytes blob = [0x4C, 0x69, 0x76, 0, 0x69, 0x6E, 0x67, 0x20, 0x52, 0, 0, 0, 0,
      0x6F, 0x6F, 0x6D, 0xC9, 0x20, 0x0A, 0x58, 0, 0, 0, 0, 0, 0] := by
    subst hblob
    decide
  obtain ⟨identity, h⟩ := exists_of_isSome hread
  have hname := (monitorName_of_decode h).1
  refine ⟨blob, identity, h, hbytes, hname, hname.trans ?_⟩
  rw [hbytes]
  decide

end VideoOutput.Edid
