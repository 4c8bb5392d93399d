import Mathlib
import VideoOutput.Proofs.RoundTrip

/-!
# Which address a blob tells

Every HDMI vendor block of a blob tells an address, and the last one counts: the one with the
greatest offset in the last extension block that has any. Here this is said over offsets
(`IsLastHdmiBlockAt`), without cutting anything into data blocks, and `address_of_decode` is the
agreement with the reader.

The reader meets the data blocks of a blob in the order of their places (`dataBlocks`), and in a
blob that it accepts they are what the grammar finds (`mem_dataBlocks_iff`). So the last address
that the reader meets is the address of the last HDMI vendor block.

A place is the number of an extension block and an offset in it, and places are compared in this
order. Which offsets have a header is a matter of the tiling, which a block that is read has once
and in one way (`Tiles.eq`); so there is no choice of places that a block could be read by, and the
last one is unique (`IsLastHdmiBlockAt.unique`). With the address the two marks beside it are known,
since a reader that meets a vendor block writes all three.
-/

namespace VideoOutput.Edid

/-! ## HDMI vendor blocks as places -/

/-- In an extension block that is read, a data block has its header at an offset. -/
def HasDataBlockAt (block : List UInt8) (o : Nat) : Prop :=
  IsRead block ∧ ∃ headers, Tiles block 4 headers (dataEnd block) ∧ o ∈ headers

/-- In extension block `n` of a blob an HDMI vendor block has its header at offset `o`. -/
structure IsHdmiBlockAt (blob : List UInt8) (n o : Nat) : Prop where
  extension : HasExtension blob n
  dataBlock : HasDataBlockAt (blockAt blob n) o
  tag : tagAt (blockAt blob n) o = 3
  identifier : identifierAt (blockAt blob n) o = 0x000C03

/-- No HDMI vendor block of a blob stands in a later extension block, or behind it in the same. -/
def IsLastHdmiBlockAt (blob : List UInt8) (n o : Nat) : Prop :=
  IsHdmiBlockAt blob n o ∧
    ∀ n' o', IsHdmiBlockAt blob n' o' → n' < n ∨ (n' = n ∧ o' ≤ o)

/-- The address in the two bytes behind the vendor, one component in each half byte. -/
def addressAt (block : List UInt8) (o : Nat) : PhysicalAddress :=
  ⟨Bytes.get block (o + 4) / 16, Bytes.get block (o + 4) % 16, Bytes.get block (o + 5) / 16,
    Bytes.get block (o + 5) % 16⟩

theorem IsLastHdmiBlockAt.unique {blob : List UInt8} {n o n' o' : Nat}
    (h : IsLastHdmiBlockAt blob n o) (h' : IsLastHdmiBlockAt blob n' o') : n = n' ∧ o = o' := by
  obtain ⟨hat, hlast⟩ := h
  obtain ⟨hat', hlast'⟩ := h'
  have hle := hlast n' o' hat'
  have hge := hlast' n o hat
  omega

/-! ## The data blocks of an extension block -/

variable {block : List UInt8} {d : Nat}

/-- Headers that tile an area are where it is cut. -/
theorem split_of_tiles {o : Nat} {headers : List Nat} (ht : Tiles block o headers d)
    (hd : d ≤ block.length) :
    DataBlock.split o ((block.take d).drop o) = (headers.map (dataBlockAt block d), none) := by
  induction headers generalizing o with
  | nil =>
    obtain rfl : o = d := ht
    rw [area_eq_nil, DataBlock.split]
    rfl
  | cons p headers ih =>
    have hends := ht.end_le.2 p (List.mem_cons_self ..)
    obtain ⟨rfl, ht⟩ := ht
    rw [split_area (by omega) hd, if_neg (Nat.not_lt.mpr hends), ih ht]
    rfl

/-- A tiling goes upwards. -/
theorem Tiles.pairwise {o b : Nat} {headers : List Nat} (h : Tiles block o headers b) :
    headers.Pairwise (· < ·) ∧ ∀ p ∈ headers, o ≤ p := by
  induction headers generalizing o with
  | nil => exact ⟨List.Pairwise.nil, fun p hp => absurd hp List.not_mem_nil⟩
  | cons p headers ih =>
    obtain ⟨rfl, h⟩ := h
    obtain ⟨hup, hbehind⟩ := ih h
    constructor
    · refine List.pairwise_cons.mpr ⟨?_, hup⟩
      intro q hq
      have hle := hbehind q hq
      omega
    · intro q hq
      rcases List.mem_cons.mp hq with rfl | hq
      · exact Nat.le_refl _
      · have hle := hbehind q hq
        omega

/-- Tilings between two places are the same. -/
theorem Tiles.eq {o b : Nat} {headers headers' : List Nat} (h : Tiles block o headers b)
    (h' : Tiles block o headers' b) : headers = headers' := by
  induction headers generalizing o headers' with
  | nil =>
    obtain rfl : o = b := h
    cases headers' with
    | nil => rfl
    | cons p headers' =>
      have hends := h'.end_le.2 p (List.mem_cons_self ..)
      obtain ⟨rfl, -⟩ := h'
      omega
  | cons p headers ih =>
    have hends := h.end_le.2 p (List.mem_cons_self ..)
    obtain ⟨rfl, h⟩ := h
    cases headers' with
    | nil =>
      obtain rfl : p = b := h'
      omega
    | cons q headers' =>
      obtain ⟨rfl, h'⟩ := h'
      rw [ih h h']

/-- The first bytes of a payload that is cut out of an area. -/
theorem take_area_eq_cons {o k : Nat} (ho : o < d) (hd : d ≤ block.length) :
    ((block.take d).drop o).take (k + 1) =
      Bytes.get block o :: ((block.take d).drop (o + 1)).take k := by
  rw [area_eq_cons ho hd, List.take_succ_cons]

/-- The vendor is in the first three bytes of the payload. -/
theorem ofPayload_three_bytes (block : List UInt8) (o : Nat) (rest : List UInt8) :
    Vendor.ofPayload (Bytes.get block (o + 1) :: Bytes.get block (o + 2) ::
        Bytes.get block (o + 3) :: rest) =
      if identifierAt block o = 0x000C03 then
        match rest with
        | ab :: cd :: _ => .hdmi (.ofBytes ab cd)
        | _ => .cutShort
      else .other (identifierAt block o) := by
  have hid : Bytes.toNatLE [Bytes.get block (o + 1), Bytes.get block (o + 2),
      Bytes.get block (o + 3)] = identifierAt block o := toNatLE_three _ _ _
  rw [← hid]
  rfl

/-- A data block that has room for what it says tells an address if it is an HDMI vendor block. -/
theorem address?_dataBlockAt {o : Nat} (hd : d ≤ block.length)
    (hend : o + 1 + lengthAt block o ≤ d) (hlong : IsLongEnough block o) :
    (dataBlockAt block d o).address? =
      if tagAt block o = 3 ∧ identifierAt block o = 0x000C03 then some (addressAt block o)
      else none := by
  have hvendor : (dataBlockAt block d o).vendor? =
      if tagAt block o = 3 then
        some (.ofPayload (((block.take d).drop (o + 1)).take (lengthAt block o)))
      else none := rfl
  unfold DataBlock.address?
  rw [hvendor]
  by_cases htag : tagAt block o = 3
  · obtain ⟨hthree, hfive⟩ := hlong htag
    obtain ⟨k, hk⟩ : ∃ k, lengthAt block o = k + 1 + 1 + 1 := ⟨lengthAt block o - 3, by omega⟩
    rw [if_pos htag, hk, take_area_eq_cons (by omega) hd, take_area_eq_cons (by omega) hd,
      take_area_eq_cons (by omega) hd, ofPayload_three_bytes]
    by_cases hid : identifierAt block o = 0x000C03
    · -- the identifier is the vendor's, so that two more bytes are there
      have hlen := hfive hid
      obtain ⟨m, rfl⟩ : ∃ m, k = m + 1 + 1 := ⟨k - 2, by omega⟩
      rw [if_pos hid, if_pos ⟨htag, hid⟩, take_area_eq_cons (by omega) hd,
        take_area_eq_cons (by omega) hd]
      rfl
    · rw [if_neg hid, if_neg fun h => hid h.2]
  · rw [if_neg htag, if_neg fun h => htag h.1]

/-- The data blocks that a reader finds in an extension block. -/
def Extension.data : Extension → List DataBlock
  | .filled data _ _ => data
  | _ => []

/-- The addresses of an extension block are those of its data blocks. -/
theorem Extension.addresses_eq (extension : Extension) :
    extension.addresses = extension.data.filterMap DataBlock.address? := by
  cases extension <;> rfl

/-- In a block that is not read a reader finds nothing. -/
theorem data_of_not_isRead (h : ¬ IsRead block) : (Extension.ofBlock block).data = [] := by
  rcases ofBlock_of_not_isRead h with ⟨tag, heq⟩ | ⟨revision, heq⟩ | heq
  · rw [heq]
    rfl
  · rw [heq]
    rfl
  · rw [heq]
    rfl

/-- In a block that is tiled a reader finds the data blocks of the tiling. -/
theorem data_of_tiles (hlen : block.length = 128) (h : IsRead block)
    (hrange : 4 ≤ dataEnd block ∧ dataEnd block ≤ 127) {headers : List Nat}
    (ht : Tiles block 4 headers (dataEnd block)) :
    (Extension.ofBlock block).data = headers.map (dataBlockAt block (dataEnd block)) := by
  rw [ofBlock_of_isRead h, if_pos hrange]
  show (DataBlock.split 4 ((block.take (dataEnd block)).drop 4)).1 = _
  rw [split_of_tiles ht (by omega)]

/-! ## The data blocks of a blob -/

variable {blob : List UInt8}

/-- The data blocks of a blob, each with the number of its extension block, in the order in which a
reader meets them. -/
def dataBlocks (blob : List UInt8) : List (Nat × DataBlock) :=
  (List.range' 1 (blob.length / 128 - 1)).flatMap fun n =>
    (Extension.ofBlock (blockAt blob n)).data.map (Prod.mk n)

/-- One place comes before another: its extension block does, or it has the lower offset in the
same. -/
def IsBefore (p q : Nat × DataBlock) : Prop :=
  p.1 < q.1 ∨ (p.1 = q.1 ∧ p.2.offset < q.2.offset)

/-- The addresses of a blob are those of its data blocks, in the order of their places. -/
theorem addresses_eq_filterMap (blob : List UInt8) :
    ((extensionBlocks blob).map Extension.ofBlock).flatMap Extension.addresses =
      (dataBlocks blob).filterMap fun p => p.2.address? := by
  rw [extensionBlocks_eq, dataBlocks, List.map_map, List.flatMap_map, List.filterMap_flatMap]
  congr 1
  funext n
  rw [List.filterMap_map]
  exact Extension.addresses_eq _

/-- A blob that is readable has, in each block that is read, the data blocks of a tiling. -/
theorem IsReadable.data_eq (h : IsReadable blob) {n : Nat} (hn : HasExtension blob n)
    (hread : IsRead (blockAt blob n)) :
    ∃ headers, Tiles (blockAt blob n) 4 headers (dataEnd (blockAt blob n)) ∧
      (∀ o ∈ headers, IsLongEnough (blockAt blob n) o) ∧
      (Extension.ofBlock (blockAt blob n)).data =
        headers.map (dataBlockAt (blockAt blob n) (dataEnd (blockAt blob n))) := by
  obtain ⟨hmin, hmax, headers, ht, hlong⟩ := h n hn hread
  exact ⟨headers, ht, hlong, data_of_tiles (length_blockAt hn) hread ⟨hmin, hmax⟩ ht⟩

/-- The data blocks that a reader meets are those of the grammar. -/
theorem mem_dataBlocks_iff (h : IsReadable blob) {n : Nat} {d : DataBlock} :
    (n, d) ∈ dataBlocks blob ↔ HasExtension blob n ∧
      ∃ o, HasDataBlockAt (blockAt blob n) o ∧
        d = dataBlockAt (blockAt blob n) (dataEnd (blockAt blob n)) o := by
  have hmem : (n, d) ∈ dataBlocks blob ↔
      HasExtension blob n ∧ d ∈ (Extension.ofBlock (blockAt blob n)).data := by
    unfold dataBlocks
    simp only [List.mem_flatMap, List.mem_map, List.mem_range'_1, ← hasExtension_iff,
      Prod.mk.injEq]
    constructor
    · rintro ⟨n', hn', d', hd', rfl, rfl⟩
      exact ⟨hn', hd'⟩
    · rintro ⟨hn, hd⟩
      exact ⟨n, hn, d, hd, rfl, rfl⟩
  rw [hmem]
  refine and_congr_right fun hn => ?_
  -- a block that is not read has no data blocks on either side
  by_cases hread : IsRead (blockAt blob n)
  · obtain ⟨headers, ht, -, hdata⟩ := h.data_eq hn hread
    rw [hdata, List.mem_map]
    constructor
    · rintro ⟨o, ho, rfl⟩
      exact ⟨o, ⟨hread, headers, ht, ho⟩, rfl⟩
    · rintro ⟨o, ⟨-, headers', ht', ho⟩, rfl⟩
      rw [← ht.eq ht'] at ho
      exact ⟨o, ho, rfl⟩
  · rw [data_of_not_isRead hread]
    refine iff_of_false List.not_mem_nil ?_
    rintro ⟨o, ⟨hread', -⟩, -⟩
    exact hread hread'

/-- A reader meets the data blocks in the order of their places. -/
theorem pairwise_dataBlocks (h : IsReadable blob) : (dataBlocks blob).Pairwise IsBefore := by
  unfold dataBlocks
  rw [List.pairwise_flatMap]
  constructor
  · intro n hn
    rw [List.mem_range'_1, ← hasExtension_iff] at hn
    by_cases hread : IsRead (blockAt blob n)
    · obtain ⟨headers, ht, -, hdata⟩ := h.data_eq hn hread
      rw [hdata, List.map_map, List.pairwise_map]
      refine ht.pairwise.1.imp ?_
      intro o o' hlt
      exact .inr ⟨rfl, hlt⟩
    · rw [data_of_not_isRead hread]
      exact List.Pairwise.nil
  · refine List.Pairwise.imp ?_ (List.pairwise_lt_range' 1)
    intro n n' hlt p hp q hq
    obtain ⟨d, -, rfl⟩ := List.mem_map.mp hp
    obtain ⟨d', -, rfl⟩ := List.mem_map.mp hq
    exact .inl hlt

/-- In a blob that is readable an HDMI vendor block tells its address, and no other data block tells
one. -/
theorem address?_eq_some_iff (h : IsReadable blob) {n : Nat} {d : DataBlock} {p : PhysicalAddress}
    (hmem : (n, d) ∈ dataBlocks blob) :
    d.address? = some p ↔
      IsHdmiBlockAt blob n d.offset ∧ p = addressAt (blockAt blob n) d.offset := by
  obtain ⟨hn, o, ho, rfl⟩ := (mem_dataBlocks_iff h).mp hmem
  obtain ⟨hread, headers, ht, hmem'⟩ := ho
  obtain ⟨headers', ht', hlong, -⟩ := h.data_eq hn hread
  rw [ht'.eq ht] at hlong
  have hmax : dataEnd (blockAt blob n) ≤ (blockAt blob n).length := by
    have hle := (h n hn hread).2.1
    rw [length_blockAt hn]
    omega
  rw [address?_dataBlockAt hmax (ht.end_le.2 o hmem') (hlong o hmem')]
  show _ ↔ IsHdmiBlockAt blob n o ∧ p = addressAt (blockAt blob n) o
  by_cases hhdmi : tagAt (blockAt blob n) o = 3 ∧ identifierAt (blockAt blob n) o = 0x000C03
  · rw [if_pos hhdmi, Option.some.injEq]
    constructor
    · rintro rfl
      exact ⟨⟨hn, ⟨hread, headers, ht, hmem'⟩, hhdmi.1, hhdmi.2⟩, rfl⟩
    · rintro ⟨-, rfl⟩
      rfl
  · rw [if_neg hhdmi]
    refine iff_of_false (by simp) ?_
    rintro ⟨hat, -⟩
    exact hhdmi ⟨hat.tag, hat.identifier⟩

/-- Every HDMI vendor block of a readable blob is met by the reader. -/
theorem IsHdmiBlockAt.exists_mem (h : IsReadable blob) {n o : Nat} (hat : IsHdmiBlockAt blob n o) :
    ∃ d, (n, d) ∈ dataBlocks blob ∧ d.offset = o ∧ d.address? ≠ none := by
  have hmem := (mem_dataBlocks_iff h).mpr ⟨hat.extension, o, hat.dataBlock, rfl⟩
  have haddress := (address?_eq_some_iff h hmem).mpr ⟨hat, rfl⟩
  refine ⟨_, hmem, rfl, ?_⟩
  rw [haddress]
  exact Option.some_ne_none _

/-! ## The last address -/

/-- The last result of a search through a list comes from an element behind all others that have
one. -/
theorem exists_of_getLast?_filterMap {α β : Type} {before : α → α → Prop} {f : α → Option β}
    {l : List α} {b : β} (hl : l.Pairwise before) (h : (l.filterMap f).getLast? = some b) :
    ∃ a ∈ l, f a = some b ∧ ∀ a' ∈ l, f a' ≠ none → a' = a ∨ before a' a := by
  induction l using List.reverseRecOn with
  | nil => exact absurd h (by simp)
  | append_singleton l x ih =>
    obtain ⟨hl, -, hbefore⟩ := List.pairwise_append.mp hl
    rw [List.filterMap_append] at h
    cases hx : f x with
    | none =>
      -- the last element has no result, so that the others decide
      rw [List.filterMap_cons_none hx, List.filterMap_nil, List.append_nil] at h
      obtain ⟨a, ha, hab, hlast⟩ := ih hl h
      refine ⟨a, List.mem_append_left _ ha, hab, ?_⟩
      intro a' ha' hsome
      rcases List.mem_append.mp ha' with ha' | ha'
      · exact hlast a' ha' hsome
      · rw [List.mem_singleton.mp ha'] at hsome
        exact absurd hx hsome
    | some b' =>
      rw [List.filterMap_cons_some hx, List.filterMap_nil, List.getLast?_append] at h
      obtain rfl : b' = b := Option.some.inj h
      refine ⟨x, List.mem_append_right _ (List.mem_singleton_self x), hx, ?_⟩
      intro a' ha' _
      rcases List.mem_append.mp ha' with ha' | ha'
      · exact .inr (hbefore a' ha' x (List.mem_singleton_self x))
      · exact .inl (List.mem_singleton.mp ha')

/-- The address that is met last stands in the last HDMI vendor block. -/
theorem IsReadable.isLastHdmiBlockAt (h : IsReadable blob) {p : PhysicalAddress}
    (hp : ((dataBlocks blob).filterMap fun q => q.2.address?).getLast? = some p) :
    ∃ n o, IsLastHdmiBlockAt blob n o ∧ p = addressAt (blockAt blob n) o := by
  obtain ⟨⟨n, d⟩, hmem, haddress, hlast⟩ := exists_of_getLast?_filterMap (pairwise_dataBlocks h) hp
  obtain ⟨hat, rfl⟩ := (address?_eq_some_iff h hmem).mp haddress
  refine ⟨n, d.offset, ⟨hat, ?_⟩, rfl⟩
  intro n' o' hat'
  obtain ⟨d', hmem', rfl, hsome⟩ := hat'.exists_mem h
  rcases hlast (n', d') hmem' hsome with heq | hbefore | ⟨hn, hlt⟩
  · obtain ⟨rfl, rfl⟩ := Prod.mk.inj heq
    exact .inr ⟨rfl, Nat.le_refl _⟩
  · exact .inl hbefore
  · exact .inr ⟨hn, Nat.le_of_lt hlt⟩

/-- No address is met exactly if there is no HDMI vendor block. -/
theorem IsReadable.getLast?_eq_none_iff (h : IsReadable blob) :
    ((dataBlocks blob).filterMap fun q => q.2.address?).getLast? = none ↔
      ¬ ∃ n o, IsHdmiBlockAt blob n o := by
  rw [List.getLast?_eq_none_iff, List.filterMap_eq_nil_iff]
  constructor
  · rintro hnone ⟨n, o, hat⟩
    obtain ⟨d, hmem, -, hsome⟩ := hat.exists_mem h
    exact hsome (hnone (n, d) hmem)
  · rintro hno ⟨n, d⟩ hmem
    cases haddress : d.address? with
    | none => rfl
    | some p => exact absurd ⟨n, d.offset, ((address?_eq_some_iff h hmem).mp haddress).1⟩ hno

/-- **The address of a blob.** Whatever the policy, in a blob that is accepted the address is the one
in the last HDMI vendor block, taken over all extension blocks that are read and the data blocks in
them, and there is none if there is no such block. The display is taken for an HDMI display exactly
if there is an address, and for one behind a repeater if moreover the second component is not
zero. -/
theorem address_of_decode {policy : ChecksumPolicy} {currentYear : Nat} {blob : List UInt8}
    {identity : Identity} (h : decode policy currentYear blob = .ok identity) :
    (∀ p, identity.address = some p ↔
      ∃ n o, IsLastHdmiBlockAt blob n o ∧ p = addressAt (blockAt blob n) o) ∧
    (identity.address = none ↔ ¬ ∃ n o, IsHdmiBlockAt blob n o) ∧
    (identity.isHdmi = true ↔ ∃ p, identity.address = some p) ∧
    (identity.isRepeater = true ↔ ∃ p, identity.address = some p ∧ p.b ≠ 0) := by
  obtain ⟨hreadable, hidentity⟩ := identity_of_decode h
  have haddress : identity.address =
      ((dataBlocks blob).filterMap fun q => q.2.address?).getLast? := by
    rw [hidentity, address_identityOf, addresses_eq_filterMap]
  have hinStep : identity.IsInStep := hidentity ▸ isInStep_identityOf _ _ currentYear
  refine ⟨?_, ?_, ?_, hinStep.isRepeater_iff⟩
  · intro p
    rw [haddress]
    constructor
    · exact hreadable.isLastHdmiBlockAt
    · rintro ⟨n, o, hlast, rfl⟩
      -- some address is met, and it stands in the one place that is the last
      cases hmet : ((dataBlocks blob).filterMap fun q => q.2.address?).getLast? with
      | none => exact absurd ⟨n, o, hlast.1⟩ (hreadable.getLast?_eq_none_iff.mp hmet)
      | some p =>
        obtain ⟨n', o', hlast', rfl⟩ := hreadable.isLastHdmiBlockAt hmet
        obtain ⟨rfl, rfl⟩ := hlast.unique hlast'
        rfl
  · rw [haddress]
    exact hreadable.getLast?_eq_none_iff
  · rw [hinStep.isHdmi_iff, Option.ne_none_iff_exists']

set_option maxRecDepth 4000 in
/-- Two HDMI vendor blocks in one extension block and a third behind an extension block of another
kind, which tells the address. -/
theorem address_of_third_hdmi_block :
    ∃ blob identity, decode .lenient 2026 blob = .ok identity ∧ IsHdmiBlockAt blob 1 10 ∧
      (∃ n o, IsLastHdmiBlockAt blob n o ∧ ⟨3, 2, 1, 0⟩ = addressAt (blockAt blob n) o) ∧
      identity.isRepeater = true := by
  obtain ⟨blob, hblob⟩ : ∃ blob, blob = header ++ List.replicate 120 0 ++
      ([0x02, 3, 16, 0, 0x65, 0x03, 0x0C, 0x00, 0x10, 0x00, 0x65, 0x03, 0x0C, 0x00, 0x21, 0x00] ++
        List.replicate 112 0) ++
      (0x70 :: List.replicate 127 0xFF) ++
      ([0x02, 3, 10, 0, 0x65, 0x03, 0x0C, 0x00, 0x32, 0x10] ++ List.replicate 118 0) := ⟨_, rfl⟩
  have hread : (decode .lenient 2026 blob).toOption.map Identity.address =
      some (some ⟨3, 2, 1, 0⟩) := by
    subst hblob
    cbv
  have hfirst : IsHdmiBlockAt blob 1 10 := by
    subst hblob
    exact ⟨⟨by decide, by decide⟩, ⟨⟨rfl, rfl, by decide⟩, [4, 10], ⟨rfl, rfl, rfl⟩, by decide⟩,
      rfl, rfl⟩
  cases h : decode .lenient 2026 blob with
  | error e =>
    rw [h] at hread
    exact absurd hread (by simp [Except.toOption])
  | ok identity =>
    rw [h] at hread
    have haddress : identity.address = some ⟨3, 2, 1, 0⟩ := Option.some.inj hread
    obtain ⟨htells, -, -, hrepeater⟩ := address_of_decode h
    exact ⟨blob, identity, h, hfirst, (htells _).mp haddress,
      hrepeater.mpr ⟨_, haddress, by decide⟩⟩

end VideoOutput.Edid
