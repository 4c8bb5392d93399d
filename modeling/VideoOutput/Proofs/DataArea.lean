import Mathlib.Algebra.GroupWithZero.Nat
import VideoOutput.Edid.Draft
import VideoOutput.Proofs.Grammar

/-!
# Data blocks, written and read

A data block is written as a header and its payload, one block behind the other, and an area is read
by cutting it at the headers again. `split_flatMap` is the agreement of the two: cutting an area
that starts with whole data blocks gives these back, at the offsets where they stand. `split_take`
is what happens to a data block of which only a part is there.

`fitting` is the longest run of whole data blocks from the first one on that has room
(`prefix_fitting_iff`). It is what the area keeps of an over-long list of data blocks, apart from
the part of the next block that is cut off in its middle (`exists_next_fitting`,
`take_flatMap_bytes`).

A `Content` is a data block without its place: a tag below eight and a payload of at most 31 bytes,
as the header has three bits for the one and five for the other. What a draft is given is brought
into these bounds (`ofGiven`), and the bounds make a header determine its content again
(`toNat_header`). So cutting never loses its way among blocks that a draft has written.
-/

namespace VideoOutput.Edid

namespace DataBlock

/-- What a data block holds, wherever it stands: a tag of three bits and at most 31 bytes. -/
structure Content where
  tag : Nat
  payload : List UInt8
  tag_lt : tag < 8
  length_le : payload.length ≤ 31

namespace Content

/-- Of a tag the lower three bits count, of a payload the first 31 bytes. -/
def ofGiven (tag : UInt8) (payload : List UInt8) : Content :=
  ⟨tag.toNat % 8, payload.take 31, Nat.mod_lt _ (by decide), List.length_take_le 31 payload⟩

/-- The stored form: the header and the payload. -/
def bytes (content : Content) : List UInt8 :=
  UInt8.ofNat (content.tag * 32 + content.payload.length) :: content.payload

/-- The number of bytes of the stored form. -/
def size (content : Content) : Nat :=
  content.payload.length + 1

/-- The data block with this content at an offset. -/
def placedAt (content : Content) (offset : Nat) : DataBlock :=
  ⟨offset, content.tag, content.payload⟩

/-- The content is not that of a vendor block, or long enough for what a vendor block says. -/
def IsLongEnough (content : Content) : Prop :=
  content.tag = 3 → 3 ≤ content.payload.length ∧
    (Bytes.toNatLE (content.payload.take 3) = 0x000C03 → 5 ≤ content.payload.length)

instance (content : Content) : Decidable content.IsLongEnough :=
  inferInstanceAs (Decidable (_ → _ ∧ (_ → _)))

/-- The address in the content, if it is that of an HDMI vendor block. -/
def address? (content : Content) : Option PhysicalAddress :=
  if content.tag = 3 ∧ content.payload.take 3 = [0x03, 0x0C, 0x00] then
    match content.payload.drop 3 with
    | ab :: cd :: _ => some (.ofBytes ab cd)
    | _ => none
  else none

/-- The number of bytes of several data blocks. -/
def total (contents : List Content) : Nat :=
  (contents.map size).sum

/-- Data blocks one behind the other, the first one at an offset. -/
def placed : Nat → List Content → List DataBlock
  | _, [] => []
  | o, content :: rest => content.placedAt o :: placed (o + content.size) rest

theorem length_bytes (content : Content) : content.bytes.length = content.size := rfl

/-- Contents written one behind the other take as many bytes as their sizes say. -/
theorem length_flatMap_bytes (contents : List Content) :
    (contents.flatMap bytes).length = total contents := by
  rw [List.length_flatMap]
  rfl

theorem total_cons (content : Content) (contents : List Content) :
    total (content :: contents) = content.size + total contents := by
  simp [total]

/-! ## Cutting what was written -/

/-- The header holds tag and length. -/
theorem toNat_header (content : Content) :
    (UInt8.ofNat (content.tag * 32 + content.payload.length)).toNat =
      content.tag * 32 + content.payload.length := by
  have htag := content.tag_lt
  have hlength := content.length_le
  rw [UInt8.toNat_ofNat', Nat.mod_eq_of_lt (by omega)]

/-- A whole data block at the head of an area is cut off as what it is, and the rest is cut further.
-/
theorem split_bytes_append (content : Content) (o : Nat) (rest : List UInt8) :
    split o (content.bytes ++ rest) =
      (content.placedAt o :: (split (o + content.size) rest).1,
        (split (o + content.size) rest).2) := by
  have hlength := content.length_le
  have hmod : (content.tag * 32 + content.payload.length) % 32 = content.payload.length := by omega
  have hdiv : (content.tag * 32 + content.payload.length) / 32 = content.tag := by omega
  have hroom : ¬ (content.payload ++ rest).length < content.payload.length := by simp
  rw [bytes, List.cons_append, split]
  dsimp only
  rw [toNat_header, hmod, hdiv, if_neg hroom, List.drop_left, List.take_left, Nat.add_assoc,
    Nat.add_comm 1]
  rfl

/-- Whole data blocks at the start of an area are found again where they stand. -/
theorem split_flatMap (contents : List Content) (o : Nat) (rest : List UInt8) :
    split o (contents.flatMap bytes ++ rest) =
      (placed o contents ++ (split (o + total contents) rest).1,
        (split (o + total contents) rest).2) := by
  induction contents generalizing o with
  | nil => rfl
  | cons content contents ih =>
    rw [List.flatMap_cons, List.append_assoc, split_bytes_append, ih, total_cons, Nat.add_assoc]
    rfl

/-- A data block of which a part is missing overruns its area. -/
theorem split_take (content : Content) (o : Nat) {n : Nat} (hpos : 0 < n)
    (hlt : n < content.size) : split o (content.bytes.take n) = ([], some o) := by
  have hlength := content.length_le
  have hmod : (content.tag * 32 + content.payload.length) % 32 = content.payload.length := by omega
  obtain ⟨m, rfl⟩ : ∃ m, n = m + 1 := ⟨n - 1, by omega⟩
  -- the header is there, but announces more than what is left
  have hshort : (content.payload.take m).length < content.payload.length := by
    have hsize : content.size = content.payload.length + 1 := rfl
    rw [List.length_take]
    omega
  rw [bytes, List.take_succ_cons, split]
  dsimp only
  rw [toNat_header, hmod, if_pos hshort]

/-- Nothing is left over from an area of whole blocks. -/
theorem split_nil (o : Nat) : split o [] = ([], none) := by
  rw [split]

/-! ## What the blocks say -/

/-- The identifier of a vendor block is written with its lowest byte first. -/
theorem toNatLE_eq_hdmi_iff (x y z : UInt8) :
    Bytes.toNatLE [x, y, z] = hdmiIdentifier ↔ [x, y, z] = [0x03, 0x0C, 0x00] := by
  have hx := x.toNat_lt
  have hy := y.toNat_lt
  have hz := z.toNat_lt
  rw [toNatLE_three]
  simp only [hdmiIdentifier, List.cons.injEq, and_true, ← UInt8.toNat_inj, UInt8.reduceToNat]
  omega

/-- The address is read the same way wherever the block stands. -/
theorem address?_placedAt (content : Content) (o : Nat) :
    (content.placedAt o).address? = content.address? := by
  unfold DataBlock.address? vendor? address? placedAt
  dsimp only
  by_cases htag : content.tag = 3
  · -- the identifier is looked at first, and then whether an address is behind it
    rw [if_pos (show content.tag = vendorTag from htag)]
    simp only [htag, true_and]
    rcases content.payload with _ | ⟨x, _ | ⟨y, _ | ⟨z, rest⟩⟩⟩
    · simp [Vendor.ofPayload]
    · simp [Vendor.ofPayload]
    · simp [Vendor.ofPayload]
    · rw [Vendor.ofPayload.eq_def, show (x :: y :: z :: rest).take 3 = [x, y, z] from rfl,
        show (x :: y :: z :: rest).drop 3 = rest from rfl]
      simp only [toNatLE_eq_hdmi_iff]
      by_cases hid : [x, y, z] = [0x03, 0x0C, 0x00]
      · rw [if_pos hid, if_pos hid]
        rcases rest with _ | ⟨_, _ | ⟨_, _⟩⟩
        all_goals rfl
      · rw [if_neg hid, if_neg hid]
  · rw [if_neg (show ¬ content.tag = vendorTag from htag), if_neg (fun h => htag h.1)]

/-- A vendor block is too short for an address exactly if its content is. -/
theorem isCutShort_placedAt (content : Content) (o : Nat) :
    (content.placedAt o).isCutShort = true ↔ ¬ content.IsLongEnough := by
  unfold DataBlock.isCutShort vendor? placedAt IsLongEnough
  dsimp only
  by_cases htag : content.tag = 3
  · rw [if_pos (show content.tag = vendorTag from htag), beq_iff_eq, Option.some.injEq,
      ofPayload_eq_cutShort_iff]
    simp [htag, hdmiIdentifier]
  · rw [if_neg (show ¬ content.tag = vendorTag from htag)]
    simp [htag]

variable {contents : List Content}

/-- Among contents that are long enough no block is too short. -/
theorem find?_isCutShort_placed (h : ∀ content ∈ contents, content.IsLongEnough) (o : Nat) :
    (placed o contents).find? DataBlock.isCutShort = none := by
  induction contents generalizing o with
  | nil => rfl
  | cons content contents ih =>
    have hlong := h content (List.mem_cons_self ..)
    have hcut : ¬ (content.placedAt o).isCutShort = true := fun hc =>
      (isCutShort_placedAt content o).mp hc hlong
    rw [placed, List.find?_cons_of_neg hcut]
    exact ih (fun content hmem => h content (List.mem_cons_of_mem _ hmem)) _

/-- Where a data block stands does not matter for the address that it carries. -/
theorem filterMap_address?_placed (contents : List Content) (o : Nat) :
    (placed o contents).filterMap DataBlock.address? = contents.filterMap address? := by
  induction contents generalizing o with
  | nil => rfl
  | cons content contents ih =>
    rw [placed, List.filterMap_cons, List.filterMap_cons, address?_placedAt, ih]

/-! ## Too little room -/

/-- The data blocks from the first one on that have room, up to the first one that has not. -/
def fitting : Nat → List Content → List Content
  | _, [] => []
  | room, content :: rest =>
    if content.size ≤ room then content :: fitting (room - content.size) rest else []

/-- No longer run of data blocks from the first one on has room. -/
theorem prefix_fitting_iff {room : Nat} {start : List Content} :
    start <+: fitting room contents ↔ start <+: contents ∧ total start ≤ room := by
  induction contents generalizing room start with
  | nil =>
    rw [fitting, List.prefix_nil]
    constructor
    · rintro rfl
      exact ⟨rfl, Nat.zero_le _⟩
    · exact fun h => h.1
  | cons content contents ih =>
    cases start with
    | nil => simp [total]
    | cons first start =>
      rw [fitting, total_cons, List.cons_prefix_cons]
      -- either the first content fits and there is less room for the others, or nothing fits
      split
      next hroom =>
        rw [List.cons_prefix_cons, ih]
        constructor
        · rintro ⟨rfl, hstart, hle⟩
          exact ⟨⟨rfl, hstart⟩, by omega⟩
        · rintro ⟨⟨rfl, hstart⟩, hle⟩
          exact ⟨rfl, hstart, by omega⟩
      next hroom =>
        constructor
        · exact fun h => absurd (List.prefix_nil.mp h) (by simp)
        · rintro ⟨⟨rfl, -⟩, hle⟩
          omega

/-- If not all data blocks have room, there is one behind those that have. -/
theorem exists_next_fitting {room : Nat} (h : room < total contents) :
    ∃ next rest, contents = fitting room contents ++ next :: rest ∧
      total (fitting room contents) ≤ room ∧
      room < total (fitting room contents) + next.size := by
  induction contents generalizing room with
  | nil => exact absurd h (by simp [total])
  | cons content contents ih =>
    rw [total_cons] at h
    rw [fitting]
    split
    next hroom =>
      have hless : room - content.size < total contents := by omega
      obtain ⟨next, rest, heq, hle, hlt⟩ := ih hless
      refine ⟨next, rest, congrArg (content :: ·) heq, ?_, ?_⟩
      · rw [total_cons]
        omega
      · rw [total_cons]
        omega
    next hroom => exact ⟨content, contents, rfl, Nat.zero_le _, by simpa [total] using hroom⟩

/-- What is left of data blocks with too little room: those that have room and a part of the next. -/
theorem take_flatMap_bytes {whole rest : List Content} {next : Content} {room : Nat}
    (hle : total whole ≤ room) (hlt : room < total whole + next.size) :
    ((whole ++ next :: rest).flatMap bytes).take room =
      whole.flatMap bytes ++ next.bytes.take (room - total whole) := by
  have hnext : room - total whole ≤ next.bytes.length := by
    rw [length_bytes]
    omega
  rw [List.flatMap_append, List.flatMap_cons, List.take_append, length_flatMap_bytes,
    List.take_of_length_le (by rw [length_flatMap_bytes]; exact hle),
    List.take_append_of_le_length hnext]

end Content

end DataBlock

end VideoOutput.Edid
