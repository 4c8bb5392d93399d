import VideoOutput.Proofs.BlobLayout

/-!
# Drafts in memory and on paper

In memory every step writes over the bytes of one block (`Buffer`), and a draft only notes what a
step sets (`Draft`). Both give the same blob after the same steps (`blob_ofSteps`), so nothing that a
step wrote is lost by a later write to another region, and the regions of the base block are where
`Draft.base` has them.

The bytes in memory are a function of the draft: the regions of the base block in their order, with
zeros in place of the number of extension blocks and of the checksum (`Draft.buffer`). A step keeps
this up (`buffer_apply`). For each of them the block is seen as three pieces, of which the middle
one is the region of the step; a write of the same length replaces the middle piece and leaves the
other two (`Block.toList_write`). The regions in front of the version are fields one behind the
other, and each is written where those in front of it end (`buffer_field`). A descriptor slot is
found the same way in the list of the slots (`exists_flatMap_set`), so a name, which is one
descriptor or two, needs no argument of its own.

Putting the blob together is two or three more writes of this kind, into a copy of the block
(`toList_completed`): the number of extension blocks, the checksum, and the checksum again if it is to
be wrong.
-/

namespace VideoOutput.Edid

/-- **A write replaces the bytes that it covers** and leaves those in front and behind. -/
theorem Block.toList_write {block : Block} (front old bytes back : List UInt8)
    (hblock : block.toList = front ++ (old ++ back)) (hlength : old.length = bytes.length)
    {offset : Nat} (hoffset : front.length = offset) (h : offset + bytes.length ≤ 128) :
    (block.write offset bytes h).toList = front ++ (bytes ++ back) := by
  subst hoffset
  have hback : block.toList.drop (front.length + bytes.length) = back := by
    rw [hblock, ← hlength, ← List.drop_drop, List.drop_left, List.drop_left]
  have hfront : block.toList.take front.length = front := by
    rw [hblock, List.take_left]
  show block.toList.take front.length ++
    (bytes ++ block.toList.drop (front.length + bytes.length)) = _
  rw [hfront, hback]

theorem Block.length_of_toList {block : Block} {body : List UInt8} {b : UInt8}
    (h : block.toList = body ++ [b]) : body.length = 0x7F := by
  have hlength := congrArg List.length h
  rw [Vector.length_toList, List.length_append, List.length_singleton] at hlength
  exact Nat.succ.inj hlength.symm

/-- The last byte of a block is replaced by one that completes its sum. -/
theorem Block.toList_withChecksum {block : Block} {body : List UInt8} {b : UInt8}
    (h : block.toList = body ++ [b]) : block.withChecksum.toList = sealed body := by
  have hlength := Block.length_of_toList h
  have htake : block.toList.take 0x7F = body := by
    rw [h, List.take_left' hlength]
  unfold Block.withChecksum
  rw [htake, Block.toList_write body [b] [0 - Bytes.sum body] [] h rfl hlength, List.append_nil]
  rfl

/-- The checksum of a block can be made one too large. -/
theorem Block.toList_spoil {block : Block} {body : List UInt8} (h : block.toList = sealed body)
    (hroom : 0x7F + [Bytes.get block.toList 0x7F + 1].length ≤ 128) :
    (block.write 0x7F [Bytes.get block.toList 0x7F + 1] hroom).toList =
      body ++ [1 - Bytes.sum body] := by
  have hlength := Block.length_of_toList h
  have hlast : Bytes.get block.toList 0x7F = 0 - Bytes.sum body := by
    rw [Bytes.get, h, sealed, ← hlength, List.getD_append_right _ _ _ _ (Nat.le_refl _),
      Nat.sub_self]
    rfl
  have hsum : 0 - Bytes.sum body + 1 = 1 - Bytes.sum body := by grind
  rw [hlast, hsum, Block.toList_write body [0 - Bytes.sum body] [1 - Bytes.sum body] [] h rfl
    hlength, List.append_nil]

namespace Draft

variable (draft : Draft)

/-- The bytes of the base block before the blob is put together. -/
def memory (draft : Draft) : List UInt8 :=
  draft.front ++ (draft.slots.toList.flatMap Vector.toList ++ [0, 0])

/-- What is in memory for a draft. -/
def buffer (draft : Draft) : Buffer where
  base := ⟨draft.memory.toArray, by
    rw [memory, List.size_toArray, List.length_append, List.length_append, length_front,
      length_slots]
    rfl⟩
  extensions := draft.extensions
  isCorrupt := draft.isCorrupt

/-- A draft that differs in one region has in memory what a write to this region leads to. -/
theorem buffer_write {draft draft' : Draft} {bytes : List UInt8} (front old back : List UInt8)
    (hmemory : draft.memory = front ++ (old ++ back)) (hlength : old.length = bytes.length)
    (hmemory' : draft'.memory = front ++ (bytes ++ back)) {offset : Nat}
    (hoffset : front.length = offset) (h : offset + bytes.length ≤ 128)
    (hextensions : draft'.extensions = draft.extensions)
    (hcorrupt : draft'.isCorrupt = draft.isCorrupt) :
    draft'.buffer = draft.buffer.write offset bytes h := by
  have hbase : draft'.buffer.base = draft.buffer.base.write offset bytes h := by
    have hblock : draft.buffer.base.toList = front ++ (old ++ back) := hmemory
    apply Vector.toList_inj.mp
    rw [Block.toList_write front old bytes back hblock hlength hoffset]
    exact hmemory'
  unfold Buffer.write
  rw [← hbase]
  show Buffer.mk draft'.buffer.base draft'.extensions draft'.isCorrupt = _
  rw [hextensions, hcorrupt]
  rfl

/-- The bytes in front of a slot and behind it stay when the slot is set. -/
theorem exists_flatMap_set (slots : Vector Descriptor 4) (slot : Fin 4) (d : Descriptor) :
    ∃ before old after : List UInt8, before.length = 18 * slot ∧ old.length = 18 ∧
      slots.toList.flatMap Vector.toList = before ++ (old ++ after) ∧
      (slots.set slot d slot.isLt).toList.flatMap Vector.toList =
        before ++ (d.toList ++ after) := by
  have hslot : slot.val < slots.toList.length := by
    rw [Vector.length_toList]
    exact slot.isLt
  obtain ⟨old, hcut⟩ : ∃ old, slots.toList.take slot ++ old :: slots.toList.drop (slot + 1) =
      slots.toList := by
    have happend := List.take_append_drop slot.val slots.toList
    rw [List.drop_eq_getElem_cons hslot] at happend
    exact ⟨_, happend⟩
  refine ⟨(slots.toList.take slot).flatMap Vector.toList, old.toList,
    (slots.toList.drop (slot + 1)).flatMap Vector.toList, ?_, Vector.length_toList, ?_, ?_⟩
  · rw [Bytes.length_flatMap_toList, List.length_take, Nat.min_eq_left (Nat.le_of_lt hslot)]
  · refine (congrArg (List.flatMap Vector.toList) hcut.symm).trans ?_
    rw [List.flatMap_append, List.flatMap_cons]
  · rw [Vector.toList_set, List.set_eq_take_append_cons_drop, if_pos hslot, List.flatMap_append,
      List.flatMap_cons]

theorem buffer_fresh : ({} : Draft).buffer = .fresh := by
  decide +kernel

/-- A descriptor is written where its slot is. -/
theorem buffer_withDescriptor (slot : Fin 4) (d : Descriptor) :
    (draft.withDescriptor slot d).buffer = draft.buffer.withDescriptor slot d := by
  obtain ⟨before, old, after, hbefore, hold, hslots, hset⟩ := exists_flatMap_set draft.slots slot d
  apply buffer_write (draft.front ++ before) old (after ++ [0, 0])
  · rw [memory, hslots]
    simp only [List.append_assoc]
  · rw [hold, Vector.length_toList]
  · show draft.front ++ ((draft.slots.set slot d).toList.flatMap Vector.toList ++ [0, 0]) = _
    rw [hset]
    simp only [List.append_assoc]
  · rw [List.length_append, length_front, hbefore]
  · rfl
  · rfl

/-- The fields of a draft in front of the version, as they are stored. -/
def fields (draft : Draft) : List (List UInt8) :=
  [header, manufacturerBytes draft.manufacturer, Bytes.ofNatLE 2 draft.productCode.toNat,
    Bytes.ofNatLE 4 draft.serialNumber.toNat, [draft.week, draft.year]]

/-- The bytes in memory begin with the fields, one behind the other. -/
theorem memory_eq :
    draft.memory = draft.fields.flatten ++ ([1, 3] ++ List.replicate 34 0 ++
      (draft.slots.toList.flatMap Vector.toList ++ [0, 0])) := by
  simp [memory, front, fields]

/-- **A field is written where the fields in front of it end.** -/
theorem buffer_field (draft' : Draft) (before : List (List UInt8)) (old : List UInt8)
    {field : List UInt8} (after : List (List UInt8)) (hfields : draft.fields = before ++ old :: after)
    (hfields' : draft'.fields = before ++ field :: after) (hlength : old.length = field.length)
    {offset : Nat} (hoffset : before.flatten.length = offset) (h : offset + field.length ≤ 128)
    (hslots : draft'.slots = draft.slots) (hextensions : draft'.extensions = draft.extensions)
    (hcorrupt : draft'.isCorrupt = draft.isCorrupt) :
    draft'.buffer = draft.buffer.write offset field h := by
  apply buffer_write before.flatten old (after.flatten ++ ([1, 3] ++ List.replicate 34 0 ++
    (draft.slots.toList.flatMap Vector.toList ++ [0, 0]))) _ hlength _ hoffset h hextensions hcorrupt
  · rw [memory_eq, hfields, List.flatten_append, List.flatten_cons, List.append_assoc,
      List.append_assoc]
  · rw [memory_eq, hfields', hslots, List.flatten_append, List.flatten_cons, List.append_assoc,
      List.append_assoc]

/-- **One step** writes what the draft notes. -/
theorem buffer_apply (step : Step) : (draft.apply step).buffer = draft.buffer.apply step := by
  cases step with
  | manufacturer id =>
    have hlength : (manufacturerBytes draft.manufacturer).length = (manufacturerBytes id).length := by
      rw [length_manufacturerBytes, length_manufacturerBytes]
    exact draft.buffer_field (draft.apply (.manufacturer id)) [header] _ _ rfl rfl hlength rfl _ rfl
      rfl rfl
  | productCode code =>
    have hlength : (Bytes.ofNatLE 2 draft.productCode.toNat).length =
        (Bytes.ofNatLE 2 code.toNat).length := by
      rw [Bytes.length_ofNatLE, Bytes.length_ofNatLE]
    refine draft.buffer_field (draft.apply (.productCode code))
      [header, manufacturerBytes draft.manufacturer] _ _ rfl rfl hlength ?_ _ rfl rfl rfl
    simp [header, length_manufacturerBytes]
  | serialNumber number =>
    have hlength : (Bytes.ofNatLE 4 draft.serialNumber.toNat).length =
        (Bytes.ofNatLE 4 number.toNat).length := by
      rw [Bytes.length_ofNatLE, Bytes.length_ofNatLE]
    refine draft.buffer_field (draft.apply (.serialNumber number))
      [header, manufacturerBytes draft.manufacturer, Bytes.ofNatLE 2 draft.productCode.toNat] _ _ rfl
      rfl hlength ?_ _ rfl rfl rfl
    simp [header, length_manufacturerBytes, Bytes.length_ofNatLE]
  | manufactured week year =>
    refine draft.buffer_field (draft.apply (.manufactured week year))
      [header, manufacturerBytes draft.manufacturer, Bytes.ofNatLE 2 draft.productCode.toNat,
        Bytes.ofNatLE 4 draft.serialNumber.toNat] _ _ rfl rfl rfl ?_ _ rfl rfl rfl
    simp [header, length_manufacturerBytes, Bytes.length_ofNatLE]
  | descriptor slot d => exact draft.buffer_withDescriptor slot d
  | monitorName name =>
    show (draft.withName name).buffer = draft.buffer.withName name
    unfold withName Buffer.withName
    dsimp only
    -- a name that ends in its first slot takes one, a longer one two
    split
    next => exact draft.buffer_withDescriptor 1 _
    next => rw [buffer_withDescriptor, buffer_withDescriptor]
  | extension block => rfl
  | corruptChecksum => rfl

/-- After any steps there is in memory what the draft says. -/
theorem buffer_ofSteps (steps : List Step) : (ofSteps steps).buffer = Buffer.ofSteps steps := by
  -- the induction is over the steps, for any draft to begin with
  have hrun : ∀ draft : Draft, (steps.foldl apply draft).buffer =
      steps.foldl Buffer.apply draft.buffer := by
    induction steps with
    | nil => exact fun _ => rfl
    | cons step steps ih =>
      intro draft
      rw [List.foldl_cons, List.foldl_cons, ih, buffer_apply]
  rw [ofSteps, hrun, buffer_fresh]
  rfl

/-- **Putting the blob together** completes the base block. -/
theorem toList_completed : draft.buffer.completed.toList = draft.base := by
  let declared := UInt8.ofNat (min draft.extensions.length 255)
  have hbody : draft.front ++ draft.slots.toList.flatMap Vector.toList ++ [declared] =
      draft.baseBody := by
    simp [declared, baseBody, front]
  have hlength : (draft.front ++ draft.slots.toList.flatMap Vector.toList).length = 0x7E := by
    rw [List.length_append, length_front, length_slots]
  have hmemory : draft.buffer.base.toList =
      draft.front ++ draft.slots.toList.flatMap Vector.toList ++ ([0] ++ [0]) := by
    show draft.memory = _
    rw [memory, List.append_assoc]
    rfl
  have hdeclared : (draft.buffer.base.write 0x7E [declared] (by simp)).toList =
      draft.baseBody ++ [0] := by
    rw [Block.toList_write _ [0] [declared] [0] hmemory rfl hlength, ← List.append_assoc, hbody]
  have hsealed := Block.toList_withChecksum hdeclared
  unfold Buffer.completed base
  show (if draft.isCorrupt then _ else _ : Block).toList = _
  split
  next => exact Block.toList_spoil hsealed _
  next => exact hsealed

/-- What is in memory for a draft makes the blob of the draft. -/
theorem blob_buffer : draft.buffer.blob = draft.blob :=
  congrArg (· ++ draft.extensions.flatMap Vector.toList) draft.toList_completed

/-- **Both ways of drafting give the same blob.** -/
theorem blob_ofSteps (steps : List Step) : (Buffer.ofSteps steps).blob = (ofSteps steps).blob := by
  rw [← buffer_ofSteps, blob_buffer]

end Draft

end VideoOutput.Edid
