import Mathlib.Algebra.GroupWithZero.Nat
import VideoOutput.Proofs.Reading
import VideoOutput.Proofs.BlobLayout

/-!
# Drafted blobs and the steps behind them

A step of a draft sets some of what the blob shall say, appends an extension block, or spoils the
checksum. `apply_eq` says it for all steps at once: everything keeps its value unless the step
writes it. Over a sequence of steps the last value that is written counts (`foldl_apply_eq`), and
with this every region of the base block holds what the last step for it wrote (`bytesOf_ofSteps`).

A region is a stretch of the base block that steps write as a whole, with its offset and its size.
The offsets are not assumed: the body of the block is its parts one behind the other
(`baseBody_eq`), the lengths of the parts are known (`lengths_parts`), and a part is found in front
of whatever follows it (`take_drop_flatten`). The module on the buffer shows that a draft made by
writes into an array, one slice a step, has the same bytes.

The blob is a function of its regions, its extension blocks and the state of its checksum
(`blob_congr`), so steps may change places as long as every region is written in the same order.
-/

namespace VideoOutput.Edid.Draft

/-! ## What a step writes -/

namespace Step

/-- The manufacturer that a step sets. -/
def manufacturer? : Step → Option String
  | .manufacturer id => some id
  | _ => none

/-- The product code that a step sets. -/
def productCode? : Step → Option UInt16
  | .productCode code => some code
  | _ => none

/-- The serial number that a step sets. -/
def serialNumber? : Step → Option UInt32
  | .serialNumber number => some number
  | _ => none

/-- The week and the year that a step sets. -/
def manufactured? : Step → Option (UInt8 × UInt8)
  | .manufactured week year => some (week, year)
  | _ => none

/-- The descriptor that a step puts into a slot. A name goes into the second slot, and what of it and
its newline does not fit there into the third. -/
def descriptor? (i : Fin 4) : Step → Option Descriptor
  | .descriptor slot d => if slot = i then some d else none
  | .monitorName name =>
    let text := Bytes.ofString name ++ [newline]
    if i.val = 1 then some (.ofName text)
    else if i.val = 2 ∧ 13 < text.length then some (.ofName (text.drop 13))
    else none
  | _ => none

/-- The extension block that a step appends. -/
def extension? : Step → Option Block
  | .extension block => some block
  | _ => none

/-- The step spoils the checksum. -/
def isSpoiling : Step → Bool
  | .corruptChecksum => true
  | _ => false

end Step

/-- A name that is too long is stored as its front part. -/
theorem ofName_take (text : List UInt8) :
    Descriptor.ofName (text.take nameLimit) = Descriptor.ofName text := by
  unfold Descriptor.ofName
  rw [List.take_take, Nat.min_self]

/-- A descriptor goes into its slot and leaves the others as they are. -/
theorem slots_withDescriptor (draft : Draft) (slot i : Fin 4) (d : Descriptor) :
    (draft.withDescriptor slot d).slots.get i =
      (if slot = i then some d else none).getD (draft.slots.get i) := by
  show (draft.slots.set slot d)[i.val] = (if slot = i then some d else none).getD draft.slots[i.val]
  by_cases hslot : slot = i
  · subst hslot
    simp
  · have hne : slot.val ≠ i.val := fun h => hslot (Fin.ext h)
    simp [hslot, hne]

/-- Every slot keeps its descriptor unless the step writes it. -/
theorem slots_apply (draft : Draft) (step : Step) (i : Fin 4) :
    (draft.apply step).slots.get i = (step.descriptor? i).getD (draft.slots.get i) := by
  cases step with
  | descriptor slot d => exact slots_withDescriptor draft slot i d
  | monitorName name =>
    show (draft.withName name).slots.get i = _
    unfold withName Step.descriptor?
    dsimp only
    split
    next hfit =>
      have hshort : ¬ 13 < (Bytes.ofString name ++ [newline]).length := Nat.not_lt.mpr hfit
      rw [slots_withDescriptor]
      simp only [hshort, and_false, if_false, eq_comm (b := i), Fin.ext_iff]
      rfl
    next hfit =>
      have hlong : 13 < (Bytes.ofString name ++ [newline]).length := Nat.not_le.mp hfit
      rw [slots_withDescriptor, slots_withDescriptor, ofName_take]
      simp only [hlong, and_true, eq_comm (b := i)]
      -- of the two slots that are written, at most one is `i`
      by_cases hsecond : i = 1
      · subst hsecond
        rfl
      · by_cases hthird : i = 2
        · subst hthird
          rfl
        · have hsecond' : i.val ≠ 1 := fun h => hsecond (Fin.ext h)
          have hthird' : i.val ≠ 2 := fun h => hthird (Fin.ext h)
          simp only [hsecond, hthird, hsecond', hthird', if_false, Option.getD_none]
  | _ => rfl

/-- **What a step does.** Everything keeps its value unless the step writes it; an extension block is
appended, and the checksum stays spoilt. -/
theorem apply_eq (draft : Draft) (step : Step) :
    draft.apply step =
      { manufacturer := step.manufacturer?.getD draft.manufacturer
        productCode := step.productCode?.getD draft.productCode
        serialNumber := step.serialNumber?.getD draft.serialNumber
        week := (step.manufactured?.getD (draft.week, draft.year)).1
        year := (step.manufactured?.getD (draft.week, draft.year)).2
        slots := Vector.ofFn fun i => (step.descriptor? i).getD (draft.slots.get i)
        extensions := draft.extensions ++ step.extension?.toList
        isCorrupt := draft.isCorrupt || step.isSpoiling } := by
  have hslots : (Vector.ofFn fun i => (step.descriptor? i).getD (draft.slots.get i)) =
      (draft.apply step).slots := by
    apply Vector.ext
    intro i hi
    rw [Vector.getElem_ofFn]
    exact (slots_apply draft step ⟨i, hi⟩).symm
  rw [hslots]
  cases step with
  | monitorName name =>
    simp only [apply, withName]
    split
    next => simp [withDescriptor, Step.manufacturer?, Step.productCode?, Step.serialNumber?,
      Step.manufactured?, Step.extension?, Step.isSpoiling]
    next => simp [withDescriptor, Step.manufacturer?, Step.productCode?, Step.serialNumber?,
      Step.manufactured?, Step.extension?, Step.isSpoiling]
  | _ => simp [apply, withDescriptor, Step.manufacturer?, Step.productCode?, Step.serialNumber?,
      Step.manufactured?, Step.extension?, Step.isSpoiling]

/-! ## What a sequence of steps writes -/

/-- Of a value that steps write, the last one written counts. -/
theorem foldl_apply_eq {α : Type} {value : Draft → α} {write : Step → Option α}
    (hstep : ∀ draft step, value (draft.apply step) = (write step).getD (value draft))
    (draft : Draft) (steps : List Step) :
    value (steps.foldl apply draft) = (steps.filterMap write).getLastD (value draft) := by
  induction steps generalizing draft with
  | nil => rfl
  | cons step steps ih =>
    rw [List.foldl_cons, ih, hstep]
    cases hwrite : write step with
    | none => rw [List.filterMap_cons_none hwrite, Option.getD_none]
    | some v => rw [List.filterMap_cons_some hwrite, Option.getD_some, List.getLastD_cons]

/-- Extension blocks are appended in the order of the steps. -/
theorem extensions_foldl (draft : Draft) (steps : List Step) :
    (steps.foldl apply draft).extensions =
      draft.extensions ++ steps.filterMap Step.extension? := by
  induction steps generalizing draft with
  | nil => simp
  | cons step steps ih =>
    rw [List.foldl_cons, ih, apply_eq, List.append_assoc]
    cases hextension : step.extension? with
    | none => rw [List.filterMap_cons_none hextension]; rfl
    | some block => rw [List.filterMap_cons_some hextension]; rfl

/-- The extension blocks are those that the steps append. -/
theorem extensions_ofSteps (steps : List Step) :
    (ofSteps steps).extensions = steps.filterMap Step.extension? :=
  extensions_foldl {} steps

/-! ## Regions of the base block -/

/-- A part of the base block that steps write. -/
inductive Region where
  | manufacturer
  | productCode
  | serialNumber
  | date
  | slot (i : Fin 4)

namespace Region

/-- Where a region starts. -/
def offset : Region → Nat
  | .manufacturer => 0x08
  | .productCode => 0x0A
  | .serialNumber => 0x0C
  | .date => 0x10
  | .slot i => 0x36 + 18 * i.val

/-- The number of bytes of a region. -/
def size : Region → Nat
  | .manufacturer => 2
  | .productCode => 2
  | .serialNumber => 4
  | .date => 2
  | .slot _ => 18

/-- What a region holds before any step: the letters `RPI`, a timing in the first slot, unused slots
behind it, and zeros. -/
def fresh : Region → List UInt8
  | .manufacturer => [0x4A, 0x09]
  | .productCode => [0, 0]
  | .serialNumber => [0, 0, 0, 0]
  | .date => [0, 0]
  | .slot i => if i.val = 0 then Descriptor.timing1080p60.toList else Descriptor.unused.toList

/-- What a draft holds for a region. -/
def bytesOf : Region → Draft → List UInt8
  | .manufacturer, draft => manufacturerBytes draft.manufacturer
  | .productCode, draft => Bytes.ofNatLE 2 draft.productCode.toNat
  | .serialNumber, draft => Bytes.ofNatLE 4 draft.serialNumber.toNat
  | .date, draft => [draft.week, draft.year]
  | .slot i, draft => (draft.slots.get i).toList

end Region

/-- What a step writes to a region. -/
def Step.bytes? (step : Step) : Region → Option (List UInt8)
  | .manufacturer => step.manufacturer?.map manufacturerBytes
  | .productCode => step.productCode?.map fun code => Bytes.ofNatLE 2 code.toNat
  | .serialNumber => step.serialNumber?.map fun number => Bytes.ofNatLE 4 number.toNat
  | .date => step.manufactured?.map fun date => [date.1, date.2]
  | .slot i => (step.descriptor? i).map Vector.toList

/-- A step changes the regions that it writes and no others. -/
theorem bytesOf_apply (r : Region) (draft : Draft) (step : Step) :
    r.bytesOf (draft.apply step) = (step.bytes? r).getD (r.bytesOf draft) := by
  rw [apply_eq]
  cases r with
  | manufacturer => exact (Option.getD_map manufacturerBytes _ _).symm
  | productCode => exact (Option.getD_map (fun code : UInt16 => Bytes.ofNatLE 2 code.toNat) _ _).symm
  | serialNumber =>
    exact (Option.getD_map (fun number : UInt32 => Bytes.ofNatLE 4 number.toNat) _ _).symm
  | date =>
    exact (Option.getD_map (fun date : UInt8 × UInt8 => [date.1, date.2]) (draft.week, draft.year)
      step.manufactured?).symm
  | slot i =>
    show ((Vector.ofFn fun i => (step.descriptor? i).getD (draft.slots.get i))[i]).toList = _
    rw [Fin.getElem_fin, Vector.getElem_ofFn]
    exact (Option.getD_map Vector.toList _ _).symm

/-- Every region holds what the last step for it wrote. -/
theorem bytesOf_ofSteps (steps : List Step) (r : Region) :
    r.bytesOf (ofSteps steps) = (steps.filterMap (·.bytes? r)).getLastD r.fresh := by
  have hfresh : r.bytesOf {} = r.fresh := by
    cases r with
    | slot i => match i with
      | 0 | 1 | 2 | 3 => rfl
    | _ => decide
  rw [← hfresh]
  exact foldl_apply_eq (bytesOf_apply r) {} steps

/-- The base block without its checksum, part by part. -/
def parts (draft : Draft) : List (List UInt8) :=
  [header, Region.manufacturer.bytesOf draft, Region.productCode.bytesOf draft,
    Region.serialNumber.bytesOf draft, Region.date.bytesOf draft, 1 :: 3 :: List.replicate 34 0] ++
    (List.finRange 4).map (fun i => (Region.slot i).bytesOf draft) ++
    [[UInt8.ofNat (min draft.extensions.length 255)]]

theorem toList_slots (slots : Vector Descriptor 4) :
    slots.toList = [slots.get 0, slots.get 1, slots.get 2, slots.get 3] := by
  apply List.ext_getElem
  · rw [Vector.length_toList]
    rfl
  · intro i hi _
    rw [Vector.length_toList] at hi
    rw [Vector.getElem_toList]
    match i with
    | 0 | 1 | 2 | 3 => rfl

/-- The body of the base block is its parts, one behind the other. -/
theorem baseBody_eq (draft : Draft) : draft.baseBody = draft.parts.flatten := by
  unfold baseBody parts
  rw [toList_slots]
  simp only [List.flatMap_cons, List.flatMap_nil, List.append_assoc, List.append_nil]
  rfl

/-- Every region has its size, whatever is written into it. -/
theorem length_bytesOf (r : Region) (draft : Draft) : (r.bytesOf draft).length = r.size := by
  cases r with
  | manufacturer => exact length_manufacturerBytes _
  | productCode => exact Bytes.length_ofNatLE _ _
  | serialNumber => exact Bytes.length_ofNatLE _ _
  | date => rfl
  | slot i => exact Vector.length_toList

/-- The lengths of the parts, from which the offset of every region follows. -/
theorem lengths_parts (draft : Draft) :
    draft.parts.map List.length = [8, 2, 2, 4, 2, 36, 18, 18, 18, 18, 1] := by
  simp only [parts, List.map_append, List.map_cons, List.map_map, Function.comp_def, length_bytesOf]
  rfl

/-- A chunk is found behind those in front of it. -/
theorem take_drop_flatten {chunks : List (List UInt8)} {k : Nat} {chunk : List UInt8}
    (h : chunks[k]? = some chunk) :
    (chunks.flatten.drop ((chunks.take k).map List.length).sum).take chunk.length = chunk := by
  obtain ⟨hlt, rfl⟩ := List.getElem?_eq_some_iff.mp h
  have hsplit : chunks.flatten =
      (chunks.take k).flatten ++ (chunks[k] ++ (chunks.drop (k + 1)).flatten) := by
    rw [← List.flatten_cons, ← List.drop_eq_getElem_cons hlt, ← List.flatten_append,
      List.take_append_drop]
  rw [hsplit, List.drop_left' List.length_flatten, List.take_left' rfl]

/-- A region is found where it starts. -/
theorem take_drop_baseBody (r : Region) (draft : Draft) :
    (draft.baseBody.drop r.offset).take r.size = r.bytesOf draft := by
  -- every region is one of the parts, and its offset is the length of those in front of it
  have hpart : ∀ k : Nat, draft.parts[k]? = some (r.bytesOf draft) →
      (([8, 2, 2, 4, 2, 36, 18, 18, 18, 18, 1] : List Nat).take k).sum = r.offset →
      (draft.baseBody.drop r.offset).take r.size = r.bytesOf draft := by
    intro k hk hoffset
    have hfound := take_drop_flatten hk
    rw [List.map_take, lengths_parts, hoffset, length_bytesOf, ← baseBody_eq] at hfound
    exact hfound
  cases r with
  | manufacturer => exact hpart 1 rfl rfl
  | productCode => exact hpart 2 rfl rfl
  | serialNumber => exact hpart 3 rfl rfl
  | date => exact hpart 4 rfl rfl
  | slot i => match i with
    | 0 => exact hpart 6 rfl rfl
    | 1 => exact hpart 7 rfl rfl
    | 2 => exact hpart 8 rfl rfl
    | 3 => exact hpart 9 rfl rfl

/-- The blob depends on nothing but its regions, its extension blocks and its checksum. -/
theorem blob_congr {draft draft' : Draft} (hregions : ∀ r : Region, r.bytesOf draft = r.bytesOf draft')
    (hextensions : draft.extensions = draft'.extensions)
    (hcorrupt : draft.isCorrupt = draft'.isCorrupt) : draft.blob = draft'.blob := by
  have hbody : draft.baseBody = draft'.baseBody := by
    rw [baseBody_eq, baseBody_eq]
    simp only [parts, hregions, hextensions]
  rw [blob, blob, base, base, hbody, hextensions, hcorrupt]

/-! ## The blob -/

/-- The body has all bytes of a block but the last. -/
theorem length_baseBody (draft : Draft) : draft.baseBody.length = 127 := by
  rw [baseBody_eq, List.length_flatten, lengths_parts]
  decide

theorem exists_base_eq (draft : Draft) : ∃ checksum, draft.base = draft.baseBody ++ [checksum] := by
  unfold base sealed
  split
  next => exact ⟨_, rfl⟩
  next => exact ⟨_, rfl⟩

/-- Every region ends in front of the declared number of extension blocks. -/
theorem Region.end_le (r : Region) : r.offset + r.size ≤ 126 := by
  cases r with
  | slot i =>
    have hi := i.isLt
    simp only [offset, size]
    omega
  | _ => decide

/-- Bytes that lie in a front part are found there. -/
theorem take_drop_append {front : List UInt8} {o n : Nat} (h : o + n ≤ front.length)
    (rest : List UInt8) : ((front ++ rest).drop o).take n = (front.drop o).take n := by
  rw [List.drop_append_of_le_length (by omega),
    List.take_append_of_le_length (by rw [List.length_drop]; omega)]

/-- A region lies in the base block where it lies in the body. -/
theorem take_drop_base (r : Region) (draft : Draft) :
    (draft.base.drop r.offset).take r.size = r.bytesOf draft := by
  have hend := r.end_le
  obtain ⟨checksum, hbase⟩ := draft.exists_base_eq
  rw [hbase, take_drop_append (by rw [length_baseBody]; omega), take_drop_baseBody]

theorem take_drop_blob (r : Region) (draft : Draft) :
    (draft.blob.drop r.offset).take r.size = r.bytesOf draft := by
  have hend := r.end_le
  rw [blob, take_drop_append (by rw [length_base]; omega), take_drop_base]

/-- The number of extension blocks is declared, up to what a byte can say. -/
theorem get_blob_declared (draft : Draft) :
    (Bytes.get draft.blob 0x7E).toNat = min draft.extensions.length 255 := by
  rw [← get_take_blockLength draft.blob (by decide), take_blob, get_base_declared,
    UInt8.toNat_ofNat']
  omega

/-- The strict policy refuses a drafted blob for its checksum or for an extension block only. -/
theorem decode_strict_blob (draft : Draft) (currentYear : Nat) :
    (∃ identity, decode .strict currentYear draft.blob = .ok identity) ∨
      decode .strict currentYear draft.blob = .error (.badChecksum 0 1) ∨
      ∃ n o, decode .strict currentYear draft.blob = .error (.truncated n o) := by
  have hdeclared : ¬ draft.blob.length / 128 - 1 < (Bytes.get draft.blob 0x7E).toNat := by
    rw [get_blob_declared, length_blob]
    omega
  rw [decode_strict_eq, validate_blob]
  cases draft.isCorrupt with
  | true => exact .inr (.inl rfl)
  | false =>
    simp only [Bool.false_eq_true, if_false, if_neg hdeclared]
    rcases decode_lenient_of_baseBlock_ok draft.baseBlock_blob currentYear with
      ⟨-, identity, heq⟩ | ⟨n, o, -, heq⟩
    · exact .inl ⟨identity, heq⟩
    · exact .inr (.inr ⟨n, o, heq⟩)

/-- What steps make of a blob, whatever they are and in whatever order. -/
structure IsWrittenBy (steps : List Step) (blob : List UInt8) : Prop where
  length : blob.length = 128 * (1 + (steps.filterMap Step.extension?).length)
  header : blob.take 8 = [0x00, 0xFF, 0xFF, 0xFF, 0xFF, 0xFF, 0xFF, 0x00]
  declared : (Bytes.get blob 0x7E).toNat = min (steps.filterMap Step.extension?).length 255
  extensions : blob.drop 128 = (steps.filterMap Step.extension?).flatMap Vector.toList
  sum_of_clean : .corruptChecksum ∉ steps → Bytes.sum (blob.take 128) = 0
  sum_of_corrupt : .corruptChecksum ∈ steps → Bytes.sum (blob.take 128) = 1
  validate_of_clean : .corruptChecksum ∉ steps → validate blob = .ok ()
  validate_of_corrupt : .corruptChecksum ∈ steps → validate blob = .error (.badChecksum 0 1)
  strict : ∀ currentYear e, decode .strict currentYear blob = .error e →
    (∀ n, e ≠ .tooShort n) ∧ e ≠ .badHeader ∧
      ∀ declared present, e ≠ .missingExtensions declared present
  /-- A region holds what the last step for it wrote. -/
  region : ∀ r : Region, (blob.drop r.offset).take r.size =
    (steps.filterMap (·.bytes? r)).getLastD r.fresh

/-- The steps decide whether the checksum of the draft is spoilt. -/
theorem isCorrupt_of_not_mem {steps : List Step} (h : .corruptChecksum ∉ steps) :
    (ofSteps steps).isCorrupt = false := by
  rw [← Bool.not_eq_true, isCorrupt_ofSteps]
  exact h

/-- The clauses one by one, for the blob that the steps make. -/
theorem isWrittenBy_ofSteps (steps : List Step) : IsWrittenBy steps (ofSteps steps).blob where
  length := by
    rw [length_blob, extensions_ofSteps]
  header := by
    rw [blob, List.take_append_of_le_length (by rw [length_base]; decide), take_header_base]
    rfl
  declared := by
    rw [get_blob_declared, extensions_ofSteps]
  extensions := by
    rw [blob, List.drop_left' (length_base _), extensions_ofSteps]
  sum_of_clean := by
    intro h
    rw [show (ofSteps steps).blob.take 128 = (ofSteps steps).base from take_blob _, sum_base,
      isCorrupt_of_not_mem h]
    rfl
  sum_of_corrupt := by
    intro h
    rw [show (ofSteps steps).blob.take 128 = (ofSteps steps).base from take_blob _, sum_base,
      (isCorrupt_ofSteps steps).mpr h]
    rfl
  validate_of_clean := by
    intro h
    rw [validate_blob, isCorrupt_of_not_mem h]
    rfl
  validate_of_corrupt := by
    intro h
    rw [validate_blob, (isCorrupt_ofSteps steps).mpr h]
    rfl
  strict := by
    intro currentYear e he
    -- the strict errors of a drafted blob are those of its checksum and of its data blocks
    rcases decode_strict_blob (ofSteps steps) currentYear with
      ⟨identity, heq⟩ | heq | ⟨n, o, heq⟩
    · exact absurd (heq.symm.trans he) (by simp)
    · obtain rfl := Except.error.inj (heq.symm.trans he)
      simp
    · obtain rfl := Except.error.inj (heq.symm.trans he)
      simp
  region := by
    intro r
    rw [take_drop_blob, bytesOf_ofSteps]

/-! ## Rearranged steps -/

/-- Steps in another order, in which every region is written, and extension blocks are appended, in
the same order as before. -/
structure IsRearrangement (steps steps' : List Step) : Prop where
  perm : steps.Perm steps'
  region : ∀ r : Region, steps.filterMap (·.bytes? r) = steps'.filterMap (·.bytes? r)
  extensions : steps.filterMap Step.extension? = steps'.filterMap Step.extension?

/-- Two neighbours may change places if one of them contributes nothing. -/
theorem filterMap_swap {α β : Type} {f : α → Option β} {a b : α} (h : f a = none ∨ f b = none)
    (before behind : List α) :
    (before ++ a :: b :: behind).filterMap f = (before ++ b :: a :: behind).filterMap f := by
  rw [List.filterMap_append, List.filterMap_append]
  congr 1
  rcases h with ha | hb
  · rw [List.filterMap_cons_none ha]
    cases hb : f b with
    | none => rw [List.filterMap_cons_none hb, List.filterMap_cons_none hb,
        List.filterMap_cons_none ha]
    | some v => rw [List.filterMap_cons_some hb, List.filterMap_cons_some hb,
        List.filterMap_cons_none ha]
  · cases ha : f a with
    | none => rw [List.filterMap_cons_none ha, List.filterMap_cons_none hb,
        List.filterMap_cons_none hb, List.filterMap_cons_none ha]
    | some v => rw [List.filterMap_cons_some ha, List.filterMap_cons_none hb,
        List.filterMap_cons_none hb, List.filterMap_cons_some ha]

/-- Neighbouring steps that write different regions may change places. -/
theorem isRearrangement_swap {a b : Step} (hregions : ∀ r, a.bytes? r = none ∨ b.bytes? r = none)
    (hextensions : a.extension? = none ∨ b.extension? = none) (before behind : List Step) :
    IsRearrangement (before ++ a :: b :: behind) (before ++ b :: a :: behind) where
  perm := (List.Perm.swap b a behind).append_left before
  region r := filterMap_swap (hregions r) before behind
  extensions := filterMap_swap hextensions before behind

theorem blob_of_isRearrangement {steps steps' : List Step} (h : IsRearrangement steps steps') :
    (ofSteps steps').blob = (ofSteps steps).blob := by
  apply blob_congr
  · intro r
    rw [bytesOf_ofSteps, bytesOf_ofSteps, h.region r]
  · rw [extensions_ofSteps, extensions_ofSteps, h.extensions]
  · rw [Bool.eq_iff_iff, isCorrupt_ofSteps, isCorrupt_ofSteps, h.perm.mem_iff]

/-- **Every drafted blob is sound.** Whatever the steps and their order, the blob consists of whole
blocks: a base block with the fixed header, the number of extension blocks as far as a byte can hold
it, in every region what the last step for it wrote, and a sum that is one off exactly if a step asked
for it; and behind it the extension blocks. Steps that write different regions may change places. -/
theorem blob_isWrittenBy (steps : List Step) :
    IsWrittenBy steps (ofSteps steps).blob ∧
      ∀ steps', IsRearrangement steps steps' → (ofSteps steps').blob = (ofSteps steps).blob :=
  ⟨isWrittenBy_ofSteps steps, fun _ h => blob_of_isRearrangement h⟩

/-- A name that takes two slots and a descriptor for the fourth slot change places between two other
steps, one of which spoils the checksum. -/
theorem blob_of_exchanged_steps :
    ∃ steps steps' : List Step,
      steps = [.serialNumber 7, .monitorName "Living Room TV", .descriptor 3 .timing1080p60,
        .corruptChecksum] ∧
      steps' = [.serialNumber 7, .descriptor 3 .timing1080p60, .monitorName "Living Room TV",
        .corruptChecksum] ∧
      IsRearrangement steps steps' ∧ (ofSteps steps').blob = (ofSteps steps).blob ∧
      .corruptChecksum ∈ steps ∧ validate (ofSteps steps).blob = .error (.badChecksum 0 1) := by
  have hregions : ∀ r, (Step.monitorName "Living Room TV").bytes? r = none ∨
      (Step.descriptor 3 .timing1080p60).bytes? r = none := by
    intro r
    cases r with
    | slot i => match i with
      | 0 | 1 | 2 => exact .inr rfl
      | 3 => exact .inl rfl
    | _ => exact .inl rfl
  have h := isRearrangement_swap hregions (.inl rfl) [.serialNumber 7] [.corruptChecksum]
  obtain ⟨hwritten, hrearranged⟩ := blob_isWrittenBy
    ([.serialNumber 7] ++ .monitorName "Living Room TV" :: .descriptor 3 .timing1080p60 ::
      [.corruptChecksum])
  exact ⟨_, _, rfl, rfl, h, hrearranged _ h, by simp, hwritten.validate_of_corrupt (by simp)⟩

end VideoOutput.Edid.Draft
