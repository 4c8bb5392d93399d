import VideoOutput.Edid.Identity

/-!
# The grammar of extension blocks

The grammar of a blob, stated over offsets: which extension blocks are read, when such a block is
well-formed, and where the first thing wrong with it stands. The reader cuts an area into data
blocks instead; `areaFault?_spec` follows it from offset to offset. `fault?_eq_none_iff` and
`fault?_eq_some_iff` are the agreement of the two for one block.

A block that is read has a tag and a revision that the reader knows and says where its data end. In
between, each data block begins with a header that has its tag and its length, and the next header
stands directly behind its payload. `Tiles` says that a list of offsets are the headers of an area
in this sense. It is determined by the area, and an area that is not tiled has a last header whose
payload would go beyond the end.

A data block is faulty if it reaches beyond the area, or if it is an HDMI vendor block with too
little payload for an address. Faults are compared by their offset only. The first one decides what
a refusal names, and behind it nothing is read, so the grammar promises nothing there either.
-/

namespace VideoOutput.Edid

/-! ## The grammar -/

/-- The block of a blob with a number. Block zero is the base block. -/
def blockAt (blob : List UInt8) (n : Nat) : List UInt8 :=
  (blob.drop (128 * n)).take 128

/-- A blob has a whole extension block with this number. -/
def HasExtension (blob : List UInt8) (n : Nat) : Prop :=
  1 ≤ n ∧ 128 * (n + 1) ≤ blob.length

/-- Of an extension block more than its kind is looked at. -/
def IsRead (block : List UInt8) : Prop :=
  Bytes.get block 0 = 0x02 ∧ Bytes.get block 1 = 3 ∧ Bytes.get block 2 ≠ 0

/-- The offset at which the data blocks of an extension block end. -/
def dataEnd (block : List UInt8) : Nat :=
  (Bytes.get block 2).toNat

/-- The tag in the header at an offset. -/
def tagAt (block : List UInt8) (o : Nat) : Nat :=
  (Bytes.get block o).toNat / 32

/-- The length of the payload that the header at an offset announces. -/
def lengthAt (block : List UInt8) (o : Nat) : Nat :=
  (Bytes.get block o).toNat % 32

/-- The vendor in the first three bytes behind a header. -/
def identifierAt (block : List UInt8) (o : Nat) : Nat :=
  (Bytes.get block (o + 1)).toNat + 0x100 * (Bytes.get block (o + 2)).toNat +
    0x10000 * (Bytes.get block (o + 3)).toNat

/-- The data block at an offset is no vendor block, or has room for what a vendor block says. -/
def IsLongEnough (block : List UInt8) (o : Nat) : Prop :=
  tagAt block o = 3 →
    3 ≤ lengthAt block o ∧ (identifierAt block o = 0x000C03 → 5 ≤ lengthAt block o)

/-- Data blocks with these headers lie from `a` to `b`, each right behind the one before. -/
def Tiles (block : List UInt8) : Nat → List Nat → Nat → Prop
  | a, [], b => a = b
  | a, o :: headers, b => o = a ∧ Tiles block (o + 1 + lengthAt block o) headers b

/-- What a block that is read has to be. -/
def WellFormed (block : List UInt8) : Prop :=
  4 ≤ dataEnd block ∧ dataEnd block ≤ 127 ∧
    ∃ headers, Tiles block 4 headers (dataEnd block) ∧ ∀ o ∈ headers, IsLongEnough block o

/-- The data block at an offset overruns the end of the data blocks or is too short. -/
def IsFaulty (block : List UInt8) (o : Nat) : Prop :=
  dataEnd block < o + 1 + lengthAt block o ∨ ¬ IsLongEnough block o

/-- The first fault of a block stands at an offset: at 2 if the data blocks end out of range, else
at the first faulty data block. -/
def FaultAt (block : List UInt8) (o : Nat) : Prop :=
  if 4 ≤ dataEnd block ∧ dataEnd block ≤ 127 then
    ∃ headers, Tiles block 4 headers o ∧ o < dataEnd block ∧
      (∀ p ∈ headers, ¬ IsFaulty block p) ∧ IsFaulty block o
  else o = 2

/-! ## Areas as offsets -/

variable {block : List UInt8} {d : Nat}

theorem get_eq_getElem {o : Nat} (h : o < block.length) : Bytes.get block o = block[o] := by
  unfold Bytes.get
  rw [List.getD_eq_getElem?_getD, List.getElem?_eq_getElem h]
  rfl

/-- The first byte of what is left of an area. -/
theorem area_eq_cons {o : Nat} (ho : o < d) (hd : d ≤ block.length) :
    (block.take d).drop o = Bytes.get block o :: (block.take d).drop (o + 1) := by
  have hlt : o < (block.take d).length := by
    rw [List.length_take]
    omega
  rw [List.drop_eq_getElem_cons hlt, List.getElem_take, get_eq_getElem (by omega)]

theorem area_eq_nil (block : List UInt8) (d : Nat) : (block.take d).drop d = [] :=
  List.drop_eq_nil_of_le (List.length_take_le d block)

theorem length_area {o : Nat} (hd : d ≤ block.length) : ((block.take d).drop o).length = d - o := by
  rw [List.length_drop, List.length_take, Nat.min_eq_left hd]

/-- A payload is too short exactly for what a vendor block says. -/
theorem ofPayload_eq_cutShort_iff (payload : List UInt8) :
    Vendor.ofPayload payload = .cutShort ↔
      ¬ (3 ≤ payload.length ∧
        (Bytes.toNatLE (payload.take 3) = hdmiIdentifier → 5 ≤ payload.length)) := by
  unfold Vendor.ofPayload
  split
  next x y z rest =>
    rw [show (x :: y :: z :: rest).take 3 = [x, y, z] from rfl]
    by_cases hid : Bytes.toNatLE [x, y, z] = hdmiIdentifier
    · rw [if_pos hid]
      split
      next => simp [hid]
      next hshort =>
        cases rest with
        | nil => simp [hid]
        | cons ab rest =>
          cases rest with
          | nil => simp [hid]
          | cons cd rest => exact absurd rfl (hshort ab cd rest)
    · simp [hid]
  next hshort =>
    have hlen : payload.length < 3 := by
      match payload, hshort with
      | [], _ => simp
      | [_], _ => simp
      | [_, _], _ => simp
      | x :: y :: z :: rest, hshort => exact absurd rfl (hshort x y z rest)
    simp [Nat.not_le.mpr hlen]

theorem toNatLE_three (x y z : UInt8) :
    Bytes.toNatLE [x, y, z] = x.toNat + 0x100 * y.toNat + 0x10000 * z.toNat := by
  simp only [Bytes.toNatLE]
  omega

/-- The data block that the header at an offset announces. -/
def dataBlockAt (block : List UInt8) (d o : Nat) : DataBlock :=
  ⟨o, (Bytes.get block o).toNat / 32,
    ((block.take d).drop (o + 1)).take ((Bytes.get block o).toNat % 32)⟩

/-- A data block that ends in its area is cut short exactly if it is not long enough. -/
theorem isCutShort_dataBlockAt {o : Nat} (hd : d ≤ block.length)
    (hend : o + 1 + lengthAt block o ≤ d) :
    (dataBlockAt block d o).isCutShort = true ↔ ¬ IsLongEnough block o := by
  have hlen : (dataBlockAt block d o).payload.length = lengthAt block o := by
    show (((block.take d).drop (o + 1)).take (lengthAt block o)).length = lengthAt block o
    rw [List.length_take, length_area hd]
    omega
  unfold DataBlock.isCutShort DataBlock.vendor?
  show ((if tagAt block o = 3 then some (Vendor.ofPayload (dataBlockAt block d o).payload)
    else none) == some .cutShort) = true ↔ _
  unfold IsLongEnough
  by_cases htag : tagAt block o = 3
  · -- the identifier is in the payload only if there are three bytes of it
    rw [if_pos htag, beq_iff_eq, Option.some.injEq, ofPayload_eq_cutShort_iff, hlen]
    by_cases hthree : 3 ≤ lengthAt block o
    · have hid : Bytes.toNatLE ((dataBlockAt block d o).payload.take 3) = identifierAt block o := by
        show Bytes.toNatLE ((((block.take d).drop (o + 1)).take (lengthAt block o)).take 3) = _
        rw [List.take_take, Nat.min_eq_left hthree, area_eq_cons (by omega) hd,
          area_eq_cons (by omega) hd, area_eq_cons (by omega) hd]
        exact toNatLE_three _ _ _
      rw [hid]
      simp [htag, hdmiIdentifier]
    · simp [htag, hthree]
  · rw [if_neg htag]
    simp [htag]

/-! ## The first fault of an area -/

/-- The first fault among the data blocks of an area that starts at `o`. -/
def areaFault? (o : Nat) (area : List UInt8) : Option Nat :=
  match (DataBlock.split o area).1.find? DataBlock.isCutShort with
  | some block => some block.offset
  | none => (DataBlock.split o area).2

/-- Nothing is wrong with an area that is at its end. -/
theorem areaFault?_end (block : List UInt8) (d : Nat) :
    areaFault? d ((block.take d).drop d) = none := by
  unfold areaFault?
  rw [area_eq_nil, DataBlock.split]
  rfl

/-- The first step of cutting an area into data blocks. -/
theorem split_area {o : Nat} (ho : o < d) (hd : d ≤ block.length) :
    DataBlock.split o ((block.take d).drop o) =
      if d < o + 1 + lengthAt block o then ([], some o)
      else
        (dataBlockAt block d o ::
            (DataBlock.split (o + 1 + lengthAt block o)
              ((block.take d).drop (o + 1 + lengthAt block o))).1,
          (DataBlock.split (o + 1 + lengthAt block o)
            ((block.take d).drop (o + 1 + lengthAt block o))).2) := by
  have hover : d - (o + 1) < (Bytes.get block o).toNat % 32 ↔ d < o + 1 + lengthAt block o := by
    unfold lengthAt
    omega
  rw [area_eq_cons ho hd, DataBlock.split, length_area hd, List.drop_drop]
  simp only [hover]
  rfl

/-- A fault at the offset where the reader stands is found there. -/
theorem areaFault?_of_isFaulty {o : Nat} (ho : o < dataEnd block)
    (hd : dataEnd block ≤ block.length) (hf : IsFaulty block o) :
    areaFault? o ((block.take (dataEnd block)).drop o) = some o := by
  -- an overrun is where the cutting ends; a block that is too short is cut and found among the rest
  unfold areaFault?
  rw [split_area ho hd]
  by_cases hover : dataEnd block < o + 1 + lengthAt block o
  · rw [if_pos hover]
    rfl
  · have hcut := (isCutShort_dataBlockAt hd (Nat.not_lt.mp hover)).mpr (hf.resolve_left hover)
    rw [if_neg hover]
    dsimp only
    rw [List.find?_cons_of_pos hcut]
    rfl

/-- A data block without a fault is passed over. -/
theorem areaFault?_of_not_isFaulty {o : Nat} (ho : o < dataEnd block)
    (hd : dataEnd block ≤ block.length) (hf : ¬ IsFaulty block o) :
    areaFault? o ((block.take (dataEnd block)).drop o) =
      areaFault? (o + 1 + lengthAt block o)
        ((block.take (dataEnd block)).drop (o + 1 + lengthAt block o)) := by
  have hover : ¬ dataEnd block < o + 1 + lengthAt block o := fun h => hf (.inl h)
  have hcut : ¬ (dataBlockAt block (dataEnd block) o).isCutShort = true := fun h =>
    hf (.inr ((isCutShort_dataBlockAt hd (Nat.not_lt.mp hover)).mp h))
  unfold areaFault?
  rw [split_area ho hd, if_neg hover]
  dsimp only
  rw [List.find?_cons_of_neg hcut]

/-- The headers passed over from an offset on, and what stops there: the end or a fault. -/
theorem areaFault?_spec {o : Nat} (ho : o ≤ dataEnd block) (hd : dataEnd block ≤ block.length) :
    ∃ headers b, Tiles block o headers b ∧ (∀ p ∈ headers, ¬ IsFaulty block p) ∧
      ((b = dataEnd block ∧ areaFault? o ((block.take (dataEnd block)).drop o) = none) ∨
        (b < dataEnd block ∧ IsFaulty block b ∧
          areaFault? o ((block.take (dataEnd block)).drop o) = some b)) := by
  -- recursion from header to header; a block without a fault ends in the area
  rcases Nat.lt_or_eq_of_le ho with hlt | rfl
  · by_cases hf : IsFaulty block o
    · exact ⟨[], o, rfl, fun p hp => absurd hp List.not_mem_nil,
        .inr ⟨hlt, hf, areaFault?_of_isFaulty hlt hd hf⟩⟩
    · have hnext : o + 1 + lengthAt block o ≤ dataEnd block := Nat.not_lt.mp fun h => hf (.inl h)
      obtain ⟨headers, b, ht, hfine, hstop⟩ := areaFault?_spec hnext hd
      rw [areaFault?_of_not_isFaulty hlt hd hf]
      refine ⟨o :: headers, b, ⟨rfl, ht⟩, fun p hp => ?_, hstop⟩
      rcases List.mem_cons.mp hp with rfl | hp
      · exact hf
      · exact hfine p hp
  · exact ⟨[], _, rfl, fun p hp => absurd hp List.not_mem_nil,
      .inl ⟨rfl, areaFault?_end block _⟩⟩
termination_by dataEnd block - o

/-- Whatever stands at the end of the data blocks overruns it. -/
theorem isFaulty_dataEnd (block : List UInt8) : IsFaulty block (dataEnd block) :=
  .inl (by omega)

/-- Headers without a fault lead from an offset to one fault only. -/
theorem Tiles.unique {o b b' : Nat} {headers headers' : List Nat}
    (h : Tiles block o headers b) (hfine : ∀ p ∈ headers, ¬ IsFaulty block p)
    (hb : IsFaulty block b) (h' : Tiles block o headers' b')
    (hfine' : ∀ p ∈ headers', ¬ IsFaulty block p) (hb' : IsFaulty block b') : b = b' := by
  -- where one list of headers ends stands a fault, so the other cannot pass over it
  induction headers generalizing o headers' with
  | nil =>
    obtain rfl : o = b := h
    cases headers' with
    | nil => exact h'
    | cons p headers' =>
      obtain ⟨rfl, -⟩ := h'
      exact absurd hb (hfine' _ (List.mem_cons_self ..))
  | cons p headers ih =>
    obtain ⟨rfl, h⟩ := h
    cases headers' with
    | nil =>
      obtain rfl : p = b' := h'
      exact absurd hb' (hfine _ (List.mem_cons_self ..))
    | cons q headers' =>
      obtain ⟨rfl, h'⟩ := h'
      exact ih h (fun r hr => hfine r (List.mem_cons_of_mem _ hr)) h'
        fun r hr => hfine' r (List.mem_cons_of_mem _ hr)

/-- Every data block of a tiling ends in it. -/
theorem Tiles.end_le {o b : Nat} {headers : List Nat} (h : Tiles block o headers b) :
    o ≤ b ∧ ∀ p ∈ headers, p + 1 + lengthAt block p ≤ b := by
  induction headers generalizing o with
  | nil => exact ⟨Nat.le_of_eq h, fun p hp => absurd hp List.not_mem_nil⟩
  | cons p headers ih =>
    obtain ⟨rfl, h⟩ := h
    obtain ⟨hle, hends⟩ := ih h
    refine ⟨by omega, fun q hq => ?_⟩
    rcases List.mem_cons.mp hq with rfl | hq
    · exact hle
    · exact hends q hq

/-- A tiling up to the end has no fault exactly if its data blocks are long enough. -/
theorem Tiles.isLongEnough_iff {o : Nat} {headers : List Nat}
    (h : Tiles block o headers (dataEnd block)) :
    (∀ p ∈ headers, ¬ IsFaulty block p) ↔ ∀ p ∈ headers, IsLongEnough block p := by
  refine ⟨fun hfine p hp => ?_, fun hlong p hp hf => ?_⟩
  · exact Classical.not_not.mp fun hshort => hfine p hp (.inr hshort)
  · rcases hf with hover | hshort
    · exact absurd (h.end_le.2 p hp) (Nat.not_le.mpr hover)
    · exact hshort (hlong p hp)

/-! ## The first fault of a block -/

/-- A block is well-formed if its data blocks tile the area and none of them is faulty. -/
theorem wellFormed_iff (block : List UInt8) :
    WellFormed block ↔ (4 ≤ dataEnd block ∧ dataEnd block ≤ 127) ∧
      ∃ headers, Tiles block 4 headers (dataEnd block) ∧ ∀ p ∈ headers, ¬ IsFaulty block p := by
  unfold WellFormed
  rw [← and_assoc]
  refine and_congr_right fun _ => exists_congr fun headers => and_congr_right fun ht => ?_
  exact ht.isLongEnough_iff.symm

/-- A block has at most one first fault. -/
theorem FaultAt.unique {o o' : Nat} (h : FaultAt block o) (h' : FaultAt block o') : o = o' := by
  unfold FaultAt at h h'
  split at h
  next hrange =>
    rw [if_pos hrange] at h'
    obtain ⟨headers, ht, -, hfine, hf⟩ := h
    obtain ⟨headers', ht', -, hfine', hf'⟩ := h'
    exact ht.unique hfine hf ht' hfine' hf'
  next hrange =>
    rw [if_neg hrange] at h'
    rw [h, h']

/-- A block with a fault is not well-formed. -/
theorem FaultAt.not_wellFormed {o : Nat} (h : FaultAt block o) : ¬ WellFormed block := by
  rw [wellFormed_iff]
  rintro ⟨hrange, headers', ht', hfine'⟩
  unfold FaultAt at h
  rw [if_pos hrange] at h
  -- the end counts as a fault, so the fault would have to stand there
  obtain ⟨headers, ht, hlt, hfine, hf⟩ := h
  have hend := ht.unique hfine hf ht' hfine' (isFaulty_dataEnd block)
  omega

/-- A block that is not read is of another kind, of another revision, or holds nothing. -/
theorem ofBlock_of_not_isRead (h : ¬ IsRead block) :
    (∃ tag, Extension.ofBlock block = .foreign tag) ∨
      (∃ revision, Extension.ofBlock block = .unsupported revision) ∨
      Extension.ofBlock block = .vacant := by
  unfold Extension.ofBlock
  dsimp only
  split
  next => exact .inl ⟨_, rfl⟩
  next htag =>
    split
    next => exact .inr (.inl ⟨_, rfl⟩)
    next hrevision =>
      split
      next => exact .inr (.inr rfl)
      next hd =>
        refine absurd ⟨Classical.not_not.mp htag, Classical.not_not.mp hrevision, fun hz => ?_⟩ h
        rw [hz] at hd
        exact hd rfl

/-- What a reader makes of a block that is read. -/
theorem ofBlock_of_isRead (h : IsRead block) :
    Extension.ofBlock block =
      if 4 ≤ dataEnd block ∧ dataEnd block ≤ 127 then
        .filled (DataBlock.split 4 ((block.take (dataEnd block)).drop 4)).1
          (DataBlock.split 4 ((block.take (dataEnd block)).drop 4)).2
          (Extension.descriptorsFrom block (dataEnd block))
      else .misplaced := by
  obtain ⟨htag, hrevision, hd⟩ := h
  have htag' : ¬ Bytes.get block 0 ≠ ceaTag := not_not_intro htag
  have hrevision' : ¬ Bytes.get block 1 ≠ ceaRevision := not_not_intro hrevision
  have hpos : (Bytes.get block 2).toNat ≠ 0 := fun hz => hd (UInt8.toNat_inj.mp hz)
  unfold Extension.ofBlock
  dsimp only
  rw [if_neg htag', if_neg hrevision', if_neg hpos]
  by_cases hrange : 4 ≤ dataEnd block ∧ dataEnd block ≤ 127
  · have hin : ¬ ((Bytes.get block 2).toNat < dataStart ∨
        checksumOffset < (Bytes.get block 2).toNat) := fun hout =>
      hout.elim (Nat.not_lt.mpr hrange.1) (Nat.not_lt.mpr hrange.2)
    rw [if_neg hin, if_pos hrange]
    rfl
  · have hout : (Bytes.get block 2).toNat < dataStart ∨
        checksumOffset < (Bytes.get block 2).toNat := by
      rcases Nat.lt_or_ge (dataEnd block) 4 with hlt | hge
      · exact .inl hlt
      · exact .inr (Nat.not_le.mp fun hle => hrange ⟨hge, hle⟩)
    rw [if_pos hout, if_neg hrange]

/-- A block that is not read has no fault. -/
theorem fault?_of_not_isRead (h : ¬ IsRead block) : (Extension.ofBlock block).fault? = none := by
  rcases ofBlock_of_not_isRead h with ⟨tag, heq⟩ | ⟨revision, heq⟩ | heq
  · rw [heq]
    rfl
  · rw [heq]
    rfl
  · rw [heq]
    rfl

/-- The first fault of a block that is read. -/
theorem fault?_of_isRead (h : IsRead block) :
    (Extension.ofBlock block).fault? =
      if 4 ≤ dataEnd block ∧ dataEnd block ≤ 127 then
        areaFault? 4 ((block.take (dataEnd block)).drop 4)
      else some 2 := by
  rw [ofBlock_of_isRead h]
  split
  next => rfl
  next => rfl

/-- A block that is read is well-formed and nothing is found wrong, or its first fault is found. -/
theorem fault?_spec (hlen : block.length = 128) (h : IsRead block) :
    (WellFormed block ∧ (Extension.ofBlock block).fault? = none) ∨
      ∃ o, FaultAt block o ∧ (Extension.ofBlock block).fault? = some o := by
  rw [fault?_of_isRead h]
  unfold FaultAt
  rw [wellFormed_iff]
  by_cases hrange : 4 ≤ dataEnd block ∧ dataEnd block ≤ 127
  · have hd : dataEnd block ≤ block.length := by omega
    simp only [if_pos hrange]
    obtain ⟨headers, b, ht, hfine, ⟨rfl, heq⟩ | ⟨hlt, hf, heq⟩⟩ := areaFault?_spec hrange.1 hd
    · exact .inl ⟨⟨hrange, headers, ht, hfine⟩, heq⟩
    · exact .inr ⟨b, ⟨headers, ht, hlt, hfine, hf⟩, heq⟩
  · simp only [if_neg hrange]
    exact .inr ⟨2, rfl, rfl⟩

/-- The reader finds nothing wrong with a block exactly if it is not read or well-formed. -/
theorem fault?_eq_none_iff (hlen : block.length = 128) :
    (Extension.ofBlock block).fault? = none ↔ (IsRead block → WellFormed block) := by
  by_cases hr : IsRead block
  · rcases fault?_spec hlen hr with ⟨hwell, heq⟩ | ⟨o, hf, heq⟩
    · exact ⟨fun _ _ => hwell, fun _ => heq⟩
    · exact ⟨fun hn => absurd (heq.symm.trans hn) (by simp),
        fun hwell => absurd (hwell hr) hf.not_wellFormed⟩
  · exact ⟨fun _ h => absurd h hr, fun _ => fault?_of_not_isRead hr⟩

/-- It finds the fault where the grammar has the first one. -/
theorem fault?_eq_some_iff (hlen : block.length = 128) {o : Nat} :
    (Extension.ofBlock block).fault? = some o ↔ IsRead block ∧ FaultAt block o := by
  by_cases hr : IsRead block
  · rcases fault?_spec hlen hr with ⟨hwell, heq⟩ | ⟨o', hf, heq⟩
    · exact ⟨fun h => absurd (heq.symm.trans h) (by simp),
        fun h => absurd hwell h.2.not_wellFormed⟩
    · rw [heq, Option.some.injEq]
      exact ⟨fun h => ⟨hr, h ▸ hf⟩, fun h => hf.unique h.2⟩
  · exact ⟨fun h => absurd ((fault?_of_not_isRead hr).symm.trans h) (by simp),
      fun h => absurd h.1 hr⟩

end VideoOutput.Edid
