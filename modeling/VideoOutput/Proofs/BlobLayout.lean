import Mathlib.Data.List.GetD
import VideoOutput.Edid.Draft

/-!
# The layout of drafted blobs

What a drafted blob holds and where, for any list of steps.

Three facts about lists carry the module. A sealed block sums to zero (`sum_sealed`), because the
byte that is written last is what the others lack. Pieces of one length that are written one behind
the other are found again when the whole is cut into that length (`pieces_flatMap_toList`), so the
descriptors and the extension blocks of a draft need no reasoning about offsets of their own. And a
block that is padded to a length it does not reach ends in zeros (`fit_eq_append`).

With these, `base_eq` writes the base block as the fields in front, the four descriptors, the
declared number and the sum, and every later module reads its bytes from there. `validate_blob` is
the first consequence: the validator accepts every draft, except one whose checksum was spoiled by a
step that says so. What the descriptors mean is left to the modules on identity.
-/

namespace VideoOutput

namespace Bytes

/-! ## Sums and pieces -/

theorem foldl_add (bytes : List UInt8) (b : UInt8) : bytes.foldl (· + ·) b = b + sum bytes := by
  induction bytes generalizing b with
  | nil => simp [sum]
  | cons c bytes ih =>
    have hsum : sum (c :: bytes) = c + sum bytes := by
      rw [sum, List.foldl_cons, UInt8.zero_add, ih]
    rw [List.foldl_cons, ih, hsum, UInt8.add_assoc]

/-- The sum of a block is taken part by part, in any order: bytes wrap around, so nothing is lost.
-/
theorem sum_append (first second : List UInt8) : sum (first ++ second) = sum first + sum second := by
  rw [sum, List.foldl_append]
  exact foldl_add second (sum first)

theorem sum_cons (b : UInt8) (bytes : List UInt8) : sum (b :: bytes) = b + sum bytes := by
  rw [sum, List.foldl_cons, UInt8.zero_add]
  exact foldl_add bytes b

/-- A last byte that completes a sum. -/
theorem sum_append_sub (bytes : List UInt8) (total : UInt8) :
    sum (bytes ++ [total - sum bytes]) = total := by
  have hlast : sum [total - sum bytes] = total - sum bytes := UInt8.zero_add _
  rw [sum_append, hlast, UInt8.add_comm, UInt8.sub_add_cancel]

theorem fit_eq_append {size : Nat} {bytes : List UInt8} (h : bytes.length ≤ size) :
    fit size bytes = bytes ++ List.replicate (size - bytes.length) 0 := by
  rw [fit, List.take_append, List.take_of_length_le h, List.take_replicate,
    Nat.min_eq_left (Nat.sub_le _ _)]

/-- Parts of one length written one behind the other take that length each. -/
theorem length_flatMap_toList {size : Nat} (parts : List (Vector UInt8 size)) :
    (parts.flatMap Vector.toList).length = size * parts.length := by
  induction parts with
  | nil => rfl
  | cons part parts ih =>
    rw [List.flatMap_cons, List.length_append, ih, Vector.length_toList, List.length_cons,
      Nat.mul_succ, Nat.add_comm]

/-- What was written in pieces of one length is found again in these. -/
theorem pieces_flatMap_toList {size : Nat} (parts : List (Vector UInt8 size)) (count : Nat)
    (rest : List UInt8) :
    pieces size (parts.length + count) (parts.flatMap Vector.toList ++ rest) =
      parts.map Vector.toList ++ pieces size count rest := by
  induction parts with
  | nil => simp
  | cons part parts ih =>
    rw [List.length_cons, Nat.add_right_comm, pieces, List.flatMap_cons, List.append_assoc,
      List.take_left' part.length_toList, List.drop_left' part.length_toList, ih]
    rfl

/-- Pieces of zeros. -/
theorem pieces_replicate_zero {size count n : Nat} (h : size * count ≤ n) (rest : List UInt8) :
    pieces size count (List.replicate n 0 ++ rest) =
      List.replicate count (List.replicate size 0) := by
  induction count generalizing n with
  | zero => rfl
  | succ count ih =>
    rw [Nat.mul_succ] at h
    obtain ⟨m, rfl⟩ : ∃ m, n = size + m := ⟨n - size, by omega⟩
    rw [pieces, ← List.replicate_append_replicate, List.append_assoc, List.take_left' List.length_replicate,
      List.drop_left' List.length_replicate, ih (by omega)]
    rfl

end Bytes

namespace Edid

/-- A sealed block sums to zero, which is all that a reader's check of a block asks for. -/
theorem sum_sealed (body : List UInt8) : Bytes.sum (sealed body) = 0 :=
  Bytes.sum_append_sub body 0

namespace Draft

/-! ## The base block -/

variable (draft : Draft)

/-- The bytes of the base block in front of the descriptors. -/
def front (draft : Draft) : List UInt8 :=
  header ++ manufacturerBytes draft.manufacturer ++ Bytes.ofNatLE 2 draft.productCode.toNat ++
    Bytes.ofNatLE 4 draft.serialNumber.toNat ++ [draft.week, draft.year, 1, 3] ++
    List.replicate 34 0

/-- The fields before the descriptors fill 54 bytes, so the first descriptor lies at offset 54. -/
theorem length_front : draft.front.length = 54 := by
  simp [front, header, length_manufacturerBytes, Bytes.length_ofNatLE]

/-- The four descriptors fill 72 bytes, which leaves the two for the declared number and the sum. -/
theorem length_slots : (draft.slots.toList.flatMap Vector.toList).length = 72 := by
  rw [Bytes.length_flatMap_toList, Vector.length_toList]

/-- The base block: what is in front of the descriptors, these, the declared number of extensions
and the checksum. -/
theorem base_eq :
    draft.base = draft.front ++ (draft.slots.toList.flatMap Vector.toList ++
      [UInt8.ofNat (min draft.extensions.length 255),
        (if draft.isCorrupt then 1 else 0) - Bytes.sum draft.baseBody]) := by
  unfold base sealed
  split
  next => simp [baseBody, front]
  next => simp [baseBody, front]

/-- The base block of every draft has 128 bytes, whatever its steps were. -/
theorem length_base : draft.base.length = 128 := by
  rw [base_eq, List.length_append, List.length_append, length_front, length_slots]
  rfl

/-- The base block sums to zero, unless its checksum was spoiled on purpose: then to one. -/
theorem sum_base : Bytes.sum draft.base = if draft.isCorrupt then 1 else 0 := by
  unfold base
  split
  next => exact Bytes.sum_append_sub draft.baseBody 1
  next => exact sum_sealed draft.baseBody

/-- Every drafted block begins with the fixed header: no step writes there. -/
theorem take_header_base : draft.base.take 8 = header := by
  rw [base_eq, front]
  simp only [List.append_assoc]
  exact List.take_left' rfl

/-- The number of extension blocks that is declared. -/
theorem get_base_declared :
    Bytes.get draft.base 0x7E = UInt8.ofNat (min draft.extensions.length 255) := by
  unfold Bytes.get
  rw [base_eq, List.getD_append_right _ _ _ _ (by rw [length_front]; decide), length_front,
    List.getD_append_right _ _ _ _ (Nat.le_of_eq draft.length_slots), length_slots]
  rfl

/-- A reader that cuts the base block where the format puts the descriptors finds those of the
draft. -/
theorem baseDescriptors_base :
    baseDescriptors draft.base = draft.slots.toList.map Vector.toList := by
  have hpieces := Bytes.pieces_flatMap_toList draft.slots.toList 0
    [UInt8.ofNat (min draft.extensions.length 255),
      (if draft.isCorrupt then 1 else 0) - Bytes.sum draft.baseBody]
  rw [Vector.length_toList, Bytes.pieces, List.append_nil] at hpieces
  rw [baseDescriptors, base_eq, List.drop_left' draft.length_front]
  exact hpieces

/-! ## The blob -/

/-- A drafted blob is whole blocks, one for the base and one for each extension. -/
theorem length_blob : draft.blob.length = 128 * (1 + draft.extensions.length) := by
  rw [blob, List.length_append, length_base, Bytes.length_flatMap_toList, Nat.mul_add]

/-- The first block of the blob is the base block. -/
theorem take_blob : draft.blob.take blockLength = draft.base :=
  List.take_left' draft.length_base

/-- A reader finds the base block and accepts its header. -/
theorem baseBlock_blob : baseBlock draft.blob = .ok draft.base := by
  have hlong : ¬ draft.blob.length < blockLength := by
    rw [length_blob]
    unfold blockLength
    omega
  have hheader : draft.blob.take 8 = header := by
    rw [blob, List.take_append_of_le_length (by rw [length_base]; decide), take_header_base]
  rw [baseBlock, if_neg hlong, if_neg (not_not_intro hheader), take_blob]

/-- A reader that cuts what is behind the base block finds the extensions, each whole and in order.
-/
theorem extensionBlocks_blob :
    extensionBlocks draft.blob = draft.extensions.map Vector.toList := by
  have hcount : draft.blob.length / blockLength - 1 = draft.extensions.length + 0 := by
    rw [length_blob]
    unfold blockLength
    omega
  have hpieces := Bytes.pieces_flatMap_toList draft.extensions 0 []
  rw [Bytes.pieces, List.append_nil, List.append_nil] at hpieces
  rw [extensionBlocks, hcount, blob,
    List.drop_left' (show draft.base.length = blockLength from draft.length_base)]
  exact hpieces

/-- The validator accepts every drafted blob whose checksum was not spoiled, and for the others
names the base block and the sum that it found. -/
theorem validate_blob :
    validate draft.blob = if draft.isCorrupt then .error (.badChecksum 0 1) else .ok () := by
  unfold validate
  rw [baseBlock_blob]
  dsimp only
  rw [sum_base]
  cases draft.isCorrupt with
  | true => rfl
  | false => rfl

/-! ## Steps -/

/-- No step repairs a spoiled checksum, so it is spoiled at the end if one step of the list did it.
-/
theorem isCorrupt_foldl (steps : List Step) :
    (steps.foldl apply draft).isCorrupt = true ↔
      draft.isCorrupt = true ∨ .corruptChecksum ∈ steps := by
  induction steps generalizing draft with
  | nil => simp
  | cons step steps ih =>
    rw [List.foldl_cons, ih]
    cases step with
    | monitorName name =>
      have hkeep : (draft.withName name).isCorrupt = draft.isCorrupt := by
        unfold withName
        dsimp only
        split
        next => rfl
        next => rfl
      simp [apply, hkeep]
    | _ => simp [apply, withDescriptor]

/-- The checksum is wrong exactly if a step asked for it. -/
theorem isCorrupt_ofSteps (steps : List Step) :
    (ofSteps steps).isCorrupt = true ↔ .corruptChecksum ∈ steps := by
  rw [ofSteps, isCorrupt_foldl]
  simp

end Draft

end Edid

end VideoOutput
