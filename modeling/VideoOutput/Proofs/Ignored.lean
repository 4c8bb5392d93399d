import VideoOutput.Proofs.HdmiAddress
import VideoOutput.Proofs.NameText

/-!
# What a reader ignores

Much of a blob has no influence on what is read from it. Here it is said by offsets which bytes have
none (`IsIgnored`), and which edits therefore go unnoticed (`IgnoredEdit`): overwriting such bytes,
putting in an extension block that is not read, and changing the partial block at the end.
`decode_of_ignoredEdits` is the agreement with the reader, for any number of such edits.

In an extension block the ignored bytes depend on where its data blocks lie. What carries the proof
is that a header lies in no payload (`Tiles.apart`), so that overwriting the payloads of other
blocks than vendor blocks leaves the tiling as it is, and with it everything that is read
(`tellSame_of_same`).

An edit is judged by the blob before it. A second edit is one of the edited blob, so there is
nothing to say about edits that get in each other's way, and the theorem for any number of them goes
by induction from the one for a single edit.
-/

namespace VideoOutput.Edid

/-! ## Edits that go unnoticed -/

/-- The byte at an offset of an extension block is ignored: the flags, the checksum, what stands
behind a kind or revision that is not read, and the payloads of other data blocks than vendor
blocks. -/
def IsIgnoredAt (block : List UInt8) (i : Nat) : Prop :=
  i = 3 ∨ i = 127 ∨ (Bytes.get block 0 ≠ 0x02 ∧ 1 ≤ i) ∨ (Bytes.get block 1 ≠ 3 ∧ 2 ≤ i) ∨
    ∃ o, HasDataBlockAt block o ∧ tagAt block o ≠ 3 ∧ o < i ∧ i ≤ o + lengthAt block o

/-- The byte at an offset of a blob is ignored. In the base block these are what lies between the
version and the descriptors, and the checksum. -/
def IsIgnored (blob : List UInt8) (p : Nat) : Prop :=
  (0x14 ≤ p ∧ p ≤ 0x35) ∨ p = 0x7F ∨
    ∃ n i, HasExtension blob n ∧ i < 128 ∧ p = 128 * n + i ∧ IsIgnoredAt (blockAt blob n) i

/-- An edit of a blob that goes unnoticed. -/
inductive IgnoredEdit : List UInt8 → List UInt8 → Prop where
  /-- Ignored bytes are overwritten, any number of them at once. -/
  | overwrite {blob blob' : List UInt8} (length : blob'.length = blob.length)
      (same : ∀ p, ¬ IsIgnored blob p → Bytes.get blob' p = Bytes.get blob p) :
      IgnoredEdit blob blob'
  /-- A block of another kind or revision is put in between two blocks, or behind the last. -/
  | insert {front block rest : List UInt8} (base : 128 ≤ front.length)
      (boundary : 128 ∣ front.length) (length : block.length = 128)
      (kind : Bytes.get block 0 ≠ 0x02 ∨ Bytes.get block 1 ≠ 3) :
      IgnoredEdit (front ++ rest) (front ++ (block ++ rest))
  /-- The partial block at the end is replaced by another, each of them perhaps empty. -/
  | replaceEnd {whole tail tail' : List UInt8} (boundary : 128 ∣ whole.length)
      (short : tail.length < 128) (short' : tail'.length < 128) :
      IgnoredEdit (whole ++ tail) (whole ++ tail')

variable {block block' : List UInt8}

/-- Overwriting one ignored byte is an edit that goes unnoticed. -/
theorem ignoredEdit_set {blob : List UInt8} {p : Nat} (h : IsIgnored blob p) (b : UInt8) :
    IgnoredEdit blob (blob.set p b) := by
  refine .overwrite List.length_set fun q hq => ?_
  have hne : p ≠ q := fun heq => hq (heq ▸ h)
  rw [Bytes.get, Bytes.get, List.getD_eq_getElem?_getD, List.getD_eq_getElem?_getD,
    List.getElem?_set_ne hne]

/-! ## Bytes that agree -/

/-- Two pieces at the same place are equal if their bytes are. -/
theorem take_drop_congr {bytes bytes' : List UInt8} {o n : Nat}
    (hlen : bytes'.length = bytes.length)
    (hsame : ∀ i, o ≤ i → i < o + n → Bytes.get bytes' i = Bytes.get bytes i) :
    (bytes'.drop o).take n = (bytes.drop o).take n := by
  apply List.ext_getElem
  · rw [List.length_take, List.length_take, List.length_drop, List.length_drop, hlen]
  · intro i hi' hi
    rw [List.length_take, List.length_drop] at hi hi'
    rw [List.getElem_take, List.getElem_take, List.getElem_drop, List.getElem_drop,
      ← get_eq_getElem, ← get_eq_getElem]
    exact hsame (o + i) (by omega) (by omega)

/-- The data block at an offset is the same for a reader, who looks into vendor blocks only. -/
structure SameDataBlock (block block' : List UInt8) (o : Nat) : Prop where
  header : Bytes.get block' o = Bytes.get block o
  payload : tagAt block o = 3 → ∀ i, o < i → i ≤ o + lengthAt block o →
    Bytes.get block' i = Bytes.get block i

namespace SameDataBlock

variable {o : Nat}

theorem tagAt_eq (h : SameDataBlock block block' o) : tagAt block' o = tagAt block o := by
  rw [tagAt, tagAt, h.header]

theorem lengthAt_eq (h : SameDataBlock block block' o) : lengthAt block' o = lengthAt block o := by
  rw [lengthAt, lengthAt, h.header]

theorem identifierAt_eq (h : SameDataBlock block block' o) (htag : tagAt block o = 3)
    (hthree : 3 ≤ lengthAt block o) : identifierAt block' o = identifierAt block o := by
  have hpayload := h.payload htag
  rw [identifierAt, identifierAt, hpayload (o + 1) (by omega) (by omega),
    hpayload (o + 2) (by omega) (by omega), hpayload (o + 3) (by omega) (by omega)]

theorem isLongEnough (h : SameDataBlock block block' o) (hlong : IsLongEnough block o) :
    IsLongEnough block' o := by
  intro htag
  rw [h.tagAt_eq] at htag
  obtain ⟨hthree, hfive⟩ := hlong htag
  rw [h.lengthAt_eq, h.identifierAt_eq htag hthree]
  exact ⟨hthree, hfive⟩

/-- The same data block tells the same address. -/
theorem address?_eq (h : SameDataBlock block block' o) {d : Nat} (hd : d ≤ block.length)
    (hd' : d ≤ block'.length) (hend : o + 1 + lengthAt block o ≤ d)
    (hlong : IsLongEnough block o) :
    (dataBlockAt block' d o).address? = (dataBlockAt block d o).address? := by
  rw [address?_dataBlockAt hd hend hlong,
    address?_dataBlockAt hd' (h.lengthAt_eq ▸ hend) (h.isLongEnough hlong), h.tagAt_eq]
  by_cases htag : tagAt block o = 3
  · obtain ⟨hthree, hfive⟩ := hlong htag
    rw [h.identifierAt_eq htag hthree]
    by_cases hid : identifierAt block o = 0x000C03
    · -- an HDMI vendor block, so that the address is in the payload
      have hlen := hfive hid
      have hpayload := h.payload htag
      rw [addressAt, addressAt, hpayload (o + 4) (by omega) (by omega),
        hpayload (o + 5) (by omega) (by omega)]
    · rw [if_neg fun hhdmi => hid hhdmi.2, if_neg fun hhdmi => hid hhdmi.2]
  · rw [if_neg fun hhdmi => htag hhdmi.1, if_neg fun hhdmi => htag hhdmi.1]

end SameDataBlock

/-! ## Ignored bytes of an extension block -/

/-- The data blocks of a tiling do not overlap. -/
theorem Tiles.apart {a b : Nat} {headers : List Nat} (h : Tiles block a headers b) :
    ∀ p ∈ headers, ∀ q ∈ headers, p < q → p + 1 + lengthAt block p ≤ q := by
  induction headers generalizing a with
  | nil => exact fun p hp => absurd hp List.not_mem_nil
  | cons o headers ih =>
    obtain ⟨rfl, h⟩ := h
    have hbehind := h.pairwise.2
    intro p hp q hq hlt
    rcases List.mem_cons.mp hp with rfl | hp'
    · rcases List.mem_cons.mp hq with rfl | hq'
      · omega
      · exact hbehind q hq'
    · rcases List.mem_cons.mp hq with rfl | hq'
      · have hle := hbehind p hp'
        omega
      · exact ih h p hp' q hq' hlt

/-- A tiling depends on its headers only. -/
theorem Tiles.congr {a b : Nat} {headers : List Nat} (h : Tiles block a headers b)
    (hsame : ∀ o ∈ headers, Bytes.get block' o = Bytes.get block o) :
    Tiles block' a headers b := by
  induction headers generalizing a with
  | nil => exact h
  | cons o headers ih =>
    obtain ⟨rfl, h⟩ := h
    have hheader := hsame o (List.mem_cons_self ..)
    refine ⟨rfl, ?_⟩
    rw [lengthAt, hheader]
    exact ih h fun p hp => hsame p (List.mem_cons_of_mem _ hp)

/-- What is ignored in a block that is read and tiled. -/
theorem isIgnoredAt_iff {headers : List Nat} (h : IsRead block)
    (ht : Tiles block 4 headers (dataEnd block)) {i : Nat} :
    IsIgnoredAt block i ↔ i = 3 ∨ i = 127 ∨
      ∃ o ∈ headers, tagAt block o ≠ 3 ∧ o < i ∧ i ≤ o + lengthAt block o := by
  have hat : ∀ o, HasDataBlockAt block o ↔ o ∈ headers := by
    intro o
    constructor
    · rintro ⟨-, headers', ht', ho⟩
      rwa [ht.eq ht']
    · exact fun ho => ⟨h, headers, ht, ho⟩
  unfold IsIgnoredAt
  simp only [h.1, h.2.1, ne_eq, not_true_eq_false, false_and, false_or, hat]

/-- Headers and the payloads of vendor blocks are not ignored. -/
theorem not_isIgnoredAt_of_mem {headers : List Nat} (h : IsRead block)
    (ht : Tiles block 4 headers (dataEnd block)) (hmax : dataEnd block ≤ 127) {o i : Nat}
    (ho : o ∈ headers) (hle : o ≤ i) (hend : i ≤ o + lengthAt block o)
    (hlooked : i = o ∨ tagAt block o = 3) : ¬ IsIgnoredAt block i := by
  have hmin := ht.pairwise.2 o ho
  have hin := ht.end_le.2 o ho
  rw [isIgnoredAt_iff h ht]
  rintro (hthree | hsum | ⟨p, hp, htag, hlt, hle'⟩)
  · omega
  · omega
  · -- the byte would lie in two data blocks, which is in one, and that is no vendor block
    rcases Nat.lt_trichotomy o p with hbefore | rfl | hbehind
    · have hapart := ht.apart o ho p hp hbefore
      omega
    · rcases hlooked with rfl | hvendor
      · omega
      · exact htag hvendor
    · have hapart := ht.apart p hp o ho hbehind
      omega

/-- The room for descriptors is not ignored. -/
theorem not_isIgnoredAt_of_dataEnd_le {headers : List Nat} (h : IsRead block)
    (ht : Tiles block 4 headers (dataEnd block)) {i : Nat} (hle : dataEnd block ≤ i)
    (hlt : i < 127) : ¬ IsIgnoredAt block i := by
  have hmin := ht.end_le.1
  rw [isIgnoredAt_iff h ht]
  rintro (hthree | hsum | ⟨p, hp, -, -, hle'⟩)
  · omega
  · omega
  · have hin := ht.end_le.2 p hp
    omega

/-! ## What an extension block tells -/

/-- A reader takes the same from two extension blocks. -/
structure TellSame (extension extension' : Extension) : Prop where
  fault? : extension'.fault? = extension.fault?
  addresses : extension'.addresses = extension.addresses
  descriptors : extension'.descriptors = extension.descriptors

/-- A block that is not read tells nothing. -/
theorem tellSame_of_not_isRead (h : ¬ IsRead block) :
    TellSame .vacant (Extension.ofBlock block) where
  fault? := fault?_of_not_isRead h
  addresses := by
    rw [Extension.addresses_eq, data_of_not_isRead h]
    rfl
  descriptors := descriptors_of_not_isRead h

/-- Of the first three bytes those are ignored that stand behind a kind or revision that is not
read. -/
theorem isIgnoredAt_iff_of_lt {i : Nat} (hi : i < 3) :
    IsIgnoredAt block i ↔
      (Bytes.get block 0 ≠ 0x02 ∧ 1 ≤ i) ∨ (Bytes.get block 1 ≠ 3 ∧ 2 ≤ i) := by
  -- no data block begins in front of offset 4
  have hdata : ¬ ∃ o, HasDataBlockAt block o ∧ tagAt block o ≠ 3 ∧ o < i ∧
      i ≤ o + lengthAt block o := by
    rintro ⟨o, ⟨-, headers, ht, ho⟩, -, hlt, -⟩
    have hmin := ht.pairwise.2 o ho
    omega
  unfold IsIgnoredAt
  rw [or_iff_right (by omega), or_iff_right (by omega), or_iff_left hdata]

/-- Whether a block is read is not decided by ignored bytes, -/
theorem isRead_iff_of_same
    (hsame : ∀ i, i < 128 → ¬ IsIgnoredAt block i → Bytes.get block' i = Bytes.get block i) :
    IsRead block' ↔ IsRead block := by
  have htag : Bytes.get block' 0 = Bytes.get block 0 :=
    hsame 0 (by decide) (by simp [isIgnoredAt_iff_of_lt])
  unfold IsRead
  rw [htag]
  refine and_congr_right fun hkind => ?_
  have hrevision : Bytes.get block' 1 = Bytes.get block 1 :=
    hsame 1 (by decide) (by simp [isIgnoredAt_iff_of_lt, hkind])
  rw [hrevision]
  refine and_congr_right fun hthree => ?_
  have hend : Bytes.get block' 2 = Bytes.get block 2 :=
    hsame 2 (by decide) (by simp [isIgnoredAt_iff_of_lt, hkind, hthree])
  rw [hend]

/-- nor is the end of its data blocks. -/
theorem dataEnd_of_same (h : IsRead block)
    (hsame : ∀ i, i < 128 → ¬ IsIgnoredAt block i → Bytes.get block' i = Bytes.get block i) :
    dataEnd block' = dataEnd block := by
  have hend : Bytes.get block' 2 = Bytes.get block 2 :=
    hsame 2 (by decide) (by simp [isIgnoredAt_iff_of_lt, h.1, h.2.1])
  rw [dataEnd, dataEnd, hend]

/-- The data blocks of a block that is read are the same for a reader. -/
theorem sameDataBlock_of_same {headers : List Nat} (h : IsRead block)
    (ht : Tiles block 4 headers (dataEnd block)) (hmax : dataEnd block ≤ 127)
    (hsame : ∀ i, i < 128 → ¬ IsIgnoredAt block i → Bytes.get block' i = Bytes.get block i)
    {o : Nat} (ho : o ∈ headers) : SameDataBlock block block' o := by
  have hin := ht.end_le.2 o ho
  refine ⟨?_, ?_⟩
  · exact hsame o (by omega)
      (not_isIgnoredAt_of_mem h ht hmax ho (Nat.le_refl o) (by omega) (.inl rfl))
  · intro htag i hlt hle
    exact hsame i (by omega)
      (not_isIgnoredAt_of_mem h ht hmax ho (Nat.le_of_lt hlt) hle (.inr htag))

/-- **Ignored bytes of an extension block have no influence.** -/
theorem tellSame_of_same (hlen : block.length = 128) (hlen' : block'.length = 128)
    (hwell : IsRead block → WellFormed block)
    (hsame : ∀ i, i < 128 → ¬ IsIgnoredAt block i → Bytes.get block' i = Bytes.get block i) :
    TellSame (Extension.ofBlock block) (Extension.ofBlock block') := by
  by_cases hread : IsRead block
  · have hread' := (isRead_iff_of_same hsame).mpr hread
    have hend := dataEnd_of_same hread hsame
    -- the tiling of the one block is a tiling of the other, as no header is overwritten
    obtain ⟨hmin, hmax, headers, ht, hlong⟩ := hwell hread
    have hdata : ∀ o ∈ headers, SameDataBlock block block' o := fun o ho =>
      sameDataBlock_of_same hread ht hmax hsame ho
    have ht' : Tiles block' 4 headers (dataEnd block') := by
      rw [hend]
      exact ht.congr fun o ho => (hdata o ho).header
    have hrange' : 4 ≤ dataEnd block' ∧ dataEnd block' ≤ 127 := by
      rw [hend]
      exact ⟨hmin, hmax⟩
    have hwell' : WellFormed block' :=
      ⟨hrange'.1, hrange'.2, headers, ht', fun o ho => (hdata o ho).isLongEnough (hlong o ho)⟩
    refine ⟨?_, ?_, ?_⟩
    · rw [(fault?_eq_none_iff hlen).mpr hwell, (fault?_eq_none_iff hlen').mpr fun _ => hwell']
    · rw [Extension.addresses_eq, Extension.addresses_eq, data_of_tiles hlen hread ⟨hmin, hmax⟩ ht,
        data_of_tiles hlen' hread' hrange' ht', List.filterMap_map, List.filterMap_map, hend]
      apply List.filterMap_congr
      intro o ho
      exact (hdata o ho).address?_eq (by omega) (by omega) (ht.end_le.2 o ho) (hlong o ho)
    · rw [descriptors_of_isRead hread ⟨hmin, hmax⟩, descriptors_of_isRead hread' hrange',
        strideOffsets_eq, strideOffsets_eq, hend]
      apply List.map_congr_left
      intro o ho
      -- descriptors lie behind the data, where nothing is ignored
      obtain ⟨k, hk, rfl⟩ := List.mem_map.mp ho
      rw [List.mem_range] at hk
      refine take_drop_congr (hlen'.trans hlen.symm) fun i hle hlt => ?_
      exact hsame i (by omega) (not_isIgnoredAt_of_dataEnd_le hread ht (by omega) (by omega))
  · have hread' : ¬ IsRead block' := fun h => hread ((isRead_iff_of_same hsame).mp h)
    have hnone := tellSame_of_not_isRead hread
    have hnone' := tellSame_of_not_isRead hread'
    exact ⟨hnone'.fault?.trans hnone.fault?.symm, hnone'.addresses.trans hnone.addresses.symm,
      hnone'.descriptors.trans hnone.descriptors.symm⟩

/-! ## What a blob tells -/

variable {blob blob' : List UInt8} {currentYear : Nat} {identity : Identity}

/-- Nothing else is read from the base block. -/
theorem identityOf_congr {base base' : List UInt8} {extensions extensions' : List Extension}
    (hlen : base'.length = base.length)
    (hsame : ∀ p, p < 0x14 ∨ (0x36 ≤ p ∧ p < 0x7F) → Bytes.get base' p = Bytes.get base p)
    (haddresses : extensions'.flatMap Extension.addresses = extensions.flatMap Extension.addresses)
    (hdescriptors :
      extensions'.flatMap Extension.descriptors = extensions.flatMap Extension.descriptors) :
    identityOf base' extensions' currentYear = identityOf base extensions currentYear := by
  have hproduct : (base'.drop 0x0A).take 2 = (base.drop 0x0A).take 2 :=
    take_drop_congr hlen fun p _ hlt => hsame p (.inl (by omega))
  have hserial : (base'.drop 0x0C).take 4 = (base.drop 0x0C).take 4 :=
    take_drop_congr hlen fun p _ hlt => hsame p (.inl (by omega))
  have hslots : baseDescriptors base' = baseDescriptors base := by
    rw [baseDescriptors, baseDescriptors, pieces_eq_map, pieces_eq_map]
    apply List.map_congr_left
    intro i hi
    rw [List.mem_range] at hi
    rw [List.drop_drop, List.drop_drop, descriptorLength]
    exact take_drop_congr hlen fun p hle hlt => hsame p (.inr (by omega))
  rw [identityOf_eq, identityOf_eq, Identity.ofBase, Identity.ofBase]
  rw [hproduct, hserial, hslots, haddresses, hdescriptors, hsame 0x08 (by decide),
    hsame 0x09 (by decide), hsame 0x10 (by decide), hsame 0x11 (by decide), hsame 0x12 (by decide),
    hsame 0x13 (by decide), hsame 0x7E (by decide)]

/-- A blob is readable if the reader finds nothing wrong with any extension block. -/
theorem isReadable_iff_fault? :
    IsReadable blob ↔ ∀ block ∈ extensionBlocks blob, (Extension.ofBlock block).fault? = none := by
  rw [extensionBlocks_eq, List.forall_mem_map]
  refine forall_congr' fun n => ?_
  rw [List.mem_range'_1, ← hasExtension_iff]
  exact forall_congr' fun hn => (fault?_eq_none_iff (length_blockAt hn)).symm

/-- A blob with a base block that starts right is read if its extension blocks are. -/
theorem decode_of_isReadable (hlen : 128 ≤ blob.length) (hheader : blob.take 8 = header)
    (hreadable : IsReadable blob) (currentYear : Nat) :
    decode .lenient currentYear blob = .ok (identityOf (blob.take blockLength)
      ((extensionBlocks blob).map Extension.ofBlock) currentYear) := by
  rcases baseBlock_cases blob with ⟨hshort, -⟩ | ⟨-, hwrong, -⟩ | ⟨-, -, hb⟩
  · omega
  · exact absurd hheader hwrong
  · rcases decode_lenient_of_baseBlock_ok hb currentYear with ⟨-, identity, heq⟩ | ⟨n, o, hat, -⟩
    · rw [heq, (identity_of_decode heq).2]
    · exact absurd hreadable hat.not_isReadable

/-- What is accepted has a base block that starts right. -/
theorem header_of_decode {policy : ChecksumPolicy}
    (h : decode policy currentYear blob = .ok identity) :
    128 ≤ blob.length ∧ blob.take 8 = header := by
  rcases baseBlock_cases blob with ⟨-, hb⟩ | ⟨-, -, hb⟩ | ⟨hlen, hheader, -⟩
  · rw [decode_of_baseBlock_error hb] at h
    exact absurd h (by simp)
  · rw [decode_of_baseBlock_error hb] at h
    exact absurd h (by simp)
  · exact ⟨hlen, hheader⟩

/-- Two blobs are read alike if they agree in what is looked at. -/
theorem decode_congr (h : decode .lenient currentYear blob = .ok identity)
    (hlen' : 128 ≤ blob'.length)
    (hbase : ∀ p, p < 0x14 ∨ (0x36 ≤ p ∧ p < 0x7F) → Bytes.get blob' p = Bytes.get blob p)
    (hreadable' : IsReadable blob')
    (haddresses : ((extensionBlocks blob').map Extension.ofBlock).flatMap Extension.addresses =
      ((extensionBlocks blob).map Extension.ofBlock).flatMap Extension.addresses)
    (hdescriptors : ((extensionBlocks blob').map Extension.ofBlock).flatMap Extension.descriptors =
      ((extensionBlocks blob).map Extension.ofBlock).flatMap Extension.descriptors) :
    decode .lenient currentYear blob' = .ok identity := by
  obtain ⟨hlen, hheader⟩ := header_of_decode h
  have hlengths : (blob'.take blockLength).length = (blob.take blockLength).length := by
    rw [blockLength, List.length_take_of_le hlen, List.length_take_of_le hlen']
  have hbytes : ∀ p, p < 0x14 ∨ (0x36 ≤ p ∧ p < 0x7F) →
      Bytes.get (blob'.take blockLength) p = Bytes.get (blob.take blockLength) p := by
    intro p hp
    have hlt : p < blockLength := by
      rw [blockLength]
      omega
    rw [get_take_blockLength blob' hlt, get_take_blockLength blob hlt, hbase p hp]
  have hheader' : blob'.take 8 = header := by
    have hfront : ((blob'.take blockLength).drop 0).take 8 = ((blob.take blockLength).drop 0).take 8 :=
      take_drop_congr hlengths fun p _ hlt => hbytes p (.inl (by omega))
    rw [List.drop_zero, List.drop_zero, List.take_take, List.take_take] at hfront
    exact hfront.trans hheader
  rw [decode_of_isReadable hlen' hheader' hreadable', (identity_of_decode h).2,
    identityOf_congr hlengths hbytes haddresses hdescriptors]

/-! ## One edit -/

/-- The bytes of an extension block are ignored in the blob if they are in the block. -/
theorem not_isIgnored_of_block {n i : Nat} (hn : HasExtension blob n) (hi : i < 128)
    (hlooked : ¬ IsIgnoredAt (blockAt blob n) i) : ¬ IsIgnored blob (128 * n + i) := by
  have hpos := hn.1
  rintro (⟨-, hle⟩ | hsum | ⟨m, j, -, hj, heq, hat⟩)
  · omega
  · omega
  · obtain rfl : m = n := by omega
    obtain rfl : j = i := by omega
    exact hlooked hat

theorem not_isIgnored_of_base {p : Nat} (hp : p < 0x14 ∨ (0x36 ≤ p ∧ p < 0x7F)) :
    ¬ IsIgnored blob p := by
  rintro (hfree | hsum | ⟨n, i, hn, hi, rfl, -⟩)
  · omega
  · omega
  · have hpos := hn.1
    omega

/-- Overwriting ignored bytes goes unnoticed. -/
theorem decode_of_overwrite (h : decode .lenient currentYear blob = .ok identity)
    (hlen : blob'.length = blob.length)
    (hsame : ∀ p, ¬ IsIgnored blob p → Bytes.get blob' p = Bytes.get blob p) :
    decode .lenient currentYear blob' = .ok identity := by
  obtain ⟨hreadable, -⟩ := identity_of_decode h
  have hsize := (header_of_decode h).1
  -- extension block by extension block, the same is told
  have htell : ∀ n ∈ List.range' 1 (blob.length / 128 - 1),
      TellSame (Extension.ofBlock (blockAt blob n)) (Extension.ofBlock (blockAt blob' n)) := by
    intro n hmem
    have hn : HasExtension blob n := hasExtension_iff.mpr (List.mem_range'_1.mp hmem)
    have hn' : HasExtension blob' n := ⟨hn.1, hlen ▸ hn.2⟩
    refine tellSame_of_same (length_blockAt hn) (length_blockAt hn') (hreadable n hn) ?_
    intro i hi hlooked
    rw [blockAt, blockAt, get_take_drop blob' _ hi, get_take_drop blob _ hi]
    exact hsame _ (not_isIgnored_of_block hn hi hlooked)
  refine decode_congr h (hlen ▸ hsize) (fun p hp => hsame p (not_isIgnored_of_base hp)) ?_ ?_ ?_
  · rw [isReadable_iff_fault?, extensionBlocks_eq, hlen, List.forall_mem_map]
    intro n hn
    rw [(htell n hn).fault?]
    refine isReadable_iff_fault?.mp hreadable _ ?_
    rw [extensionBlocks_eq]
    exact List.mem_map_of_mem hn
  · rw [extensionBlocks_eq, extensionBlocks_eq, hlen, List.map_map, List.map_map, List.flatMap_map,
      List.flatMap_map]
    exact List.flatMap_congr fun n hn => (htell n hn).addresses
  · rw [extensionBlocks_eq, extensionBlocks_eq, hlen, List.map_map, List.map_map, List.flatMap_map,
      List.flatMap_map]
    exact List.flatMap_congr fun n hn => (htell n hn).descriptors

/-- Behind whole pieces the cutting starts anew. -/
theorem pieces_append {size m : Nat} {front : List UInt8} (h : front.length = size * m) (n : Nat)
    (rest : List UInt8) :
    Bytes.pieces size (m + n) (front ++ rest) =
      Bytes.pieces size m front ++ Bytes.pieces size n rest := by
  induction m generalizing front with
  | zero =>
    rw [Nat.mul_zero, List.length_eq_zero_iff] at h
    rw [h, Nat.zero_add]
    rfl
  | succ m ih =>
    rw [Nat.mul_succ] at h
    have hrest : (front.drop size).length = size * m := by
      rw [List.length_drop]
      omega
    rw [Nat.add_right_comm, Bytes.pieces, Bytes.pieces, List.take_append_of_le_length (by omega),
      List.drop_append_of_le_length (by omega), ih hrest, List.cons_append]

/-- The extension blocks of a blob that is taken apart between two blocks. -/
theorem extensionBlocks_append {front : List UInt8} (hbase : 128 ≤ front.length)
    (hboundary : 128 ∣ front.length) (rest : List UInt8) :
    extensionBlocks (front ++ rest) =
      extensionBlocks front ++ Bytes.pieces 128 (rest.length / 128) rest := by
  obtain ⟨k, hk⟩ := hboundary
  have hbehind : (front.drop 128).length = 128 * (k - 1) := by
    rw [List.length_drop]
    omega
  have hcount : (front ++ rest).length / 128 - 1 = k - 1 + rest.length / 128 := by
    rw [List.length_append]
    omega
  have hcount' : front.length / 128 - 1 = k - 1 := by omega
  rw [extensionBlocks, extensionBlocks, blockLength, hcount, hcount',
    List.drop_append_of_le_length hbase, pieces_append hbehind]

theorem get_append_of_lt {front : List UInt8} {p : Nat} (hp : p < front.length)
    (rest : List UInt8) : Bytes.get (front ++ rest) p = Bytes.get front p := by
  rw [Bytes.get, Bytes.get, List.getD_append _ _ _ _ hp]

/-- A block that is not read goes unnoticed between two others. -/
theorem decode_of_insert {front block rest : List UInt8}
    (h : decode .lenient currentYear (front ++ rest) = .ok identity)
    (hbase : 128 ≤ front.length) (hboundary : 128 ∣ front.length) (hlen : block.length = 128)
    (hkind : Bytes.get block 0 ≠ 0x02 ∨ Bytes.get block 1 ≠ 3) :
    decode .lenient currentYear (front ++ (block ++ rest)) = .ok identity := by
  have hread : ¬ IsRead block := fun hread => hkind.elim (fun ht => ht hread.1)
    fun hr => hr hread.2.1
  have htell := tellSame_of_not_isRead hread
  -- behind the boundary the pieces are the new block and those from before
  have hmore : Bytes.pieces 128 ((block ++ rest).length / 128) (block ++ rest) =
      block :: Bytes.pieces 128 (rest.length / 128) rest := by
    have hcount : (block ++ rest).length / 128 = 1 + rest.length / 128 := by
      rw [List.length_append]
      omega
    rw [hcount, pieces_append (hlen.trans (Nat.mul_one 128).symm), Bytes.pieces, Bytes.pieces,
      List.take_of_length_le (Nat.le_of_eq hlen), List.singleton_append]
  have hblocks := extensionBlocks_append hbase hboundary rest
  have hblocks' := extensionBlocks_append hbase hboundary (block ++ rest)
  rw [hmore] at hblocks'
  have hfine := isReadable_iff_fault?.mp (identity_of_decode h).1
  refine decode_congr h (by rw [List.length_append]; omega) ?_ ?_ ?_ ?_
  · intro p hp
    rw [get_append_of_lt (by omega), get_append_of_lt (by omega)]
  · rw [isReadable_iff_fault?, hblocks']
    rw [hblocks] at hfine
    intro b hb
    rcases List.mem_append.mp hb with hb | hb
    · exact hfine b (List.mem_append_left _ hb)
    · rcases List.mem_cons.mp hb with rfl | hb
      · exact htell.fault?
      · exact hfine b (List.mem_append_right _ hb)
  · rw [hblocks, hblocks', List.map_append, List.map_append, List.map_cons, List.flatMap_append,
      List.flatMap_append, List.flatMap_cons, htell.addresses]
    rfl
  · rw [hblocks, hblocks', List.map_append, List.map_append, List.map_cons, List.flatMap_append,
      List.flatMap_append, List.flatMap_cons, htell.descriptors]
    rfl

/-- The partial block at the end goes unnoticed. -/
theorem decode_of_replaceEnd {whole tail tail' : List UInt8}
    (h : decode .lenient currentYear (whole ++ tail) = .ok identity)
    (hboundary : 128 ∣ whole.length) (hshort : tail.length < 128)
    (hshort' : tail'.length < 128) :
    decode .lenient currentYear (whole ++ tail') = .ok identity := by
  have hbase : 128 ≤ whole.length := by
    have hlen := (header_of_decode h).1
    rw [List.length_append] at hlen
    omega
  have hblocks : extensionBlocks (whole ++ tail') = extensionBlocks (whole ++ tail) := by
    rw [extensionBlocks_append hbase hboundary, extensionBlocks_append hbase hboundary,
      Nat.div_eq_of_lt hshort, Nat.div_eq_of_lt hshort']
    rfl
  refine decode_congr h (by rw [List.length_append]; omega) ?_ ?_ (by rw [hblocks]) (by rw [hblocks])
  · intro p hp
    rw [get_append_of_lt (by omega), get_append_of_lt (by omega)]
  · rw [isReadable_iff_fault?, hblocks]
    exact isReadable_iff_fault?.mp (identity_of_decode h).1

/-- What is accepted is read the same after an edit that goes unnoticed. -/
theorem decode_of_ignoredEdit (hedit : IgnoredEdit blob blob')
    (h : decode .lenient currentYear blob = .ok identity) :
    decode .lenient currentYear blob' = .ok identity := by
  cases hedit with
  | overwrite length same => exact decode_of_overwrite h length same
  | insert base boundary length kind => exact decode_of_insert h base boundary length kind
  | replaceEnd boundary short short' => exact decode_of_replaceEnd h boundary short short'

/-! ## Any number of edits -/

/-- **Ignored content has no influence.** A blob that the lenient policy accepts is read as the same
identity after any number of edits that go unnoticed, one after the other, in whatever order. -/
theorem decode_of_ignoredEdits (h : decode .lenient currentYear blob = .ok identity)
    (hedits : Relation.ReflTransGen IgnoredEdit blob blob') :
    decode .lenient currentYear blob' = .ok identity := by
  induction hedits with
  | refl => exact h
  | tail _ hedit ih => exact decode_of_ignoredEdit hedit ih

set_option maxRecDepth 4000 in
/-- A payload in front of an HDMI vendor block is overwritten, a block of another kind is put in
behind the base block, and the partial block at the end goes away. -/
theorem decode_of_three_ignoredEdits :
    ∃ blob blob' identity, decode .lenient 2026 blob = .ok identity ∧
      Relation.ReflTransGen IgnoredEdit blob blob' ∧
      decode .lenient 2026 blob' = .ok identity ∧ blob.length = 259 ∧ blob'.length = 384 ∧
      Bytes.get blob 133 = 0x10 ∧ Bytes.get blob' 261 = 0x65 := by
  obtain ⟨base, hbase⟩ : ∃ base, base = header ++ List.replicate 120 0 := ⟨_, rfl⟩
  obtain ⟨foreign, hforeign⟩ : ∃ block : List UInt8, block = 0x70 :: List.replicate 127 0xFF :=
    ⟨_, rfl⟩
  obtain ⟨data, hdata⟩ : ∃ data : UInt8 → List UInt8, data = fun b =>
      [0x02, 3, 13, 0, 0x42, b, 0x04, 0x65, 0x03, 0x0C, 0x00, 0x12, 0x30] ++
        List.replicate 115 0 := ⟨_, rfl⟩
  have hread : (decode .lenient 2026 (base ++ (data 0x10 ++ [1, 2, 3]))).toOption.isSome = true := by
    subst hbase hdata
    cbv
  have hignored : IsIgnored (base ++ (data 0x10 ++ [1, 2, 3])) 133 := by
    subst hbase hdata
    exact .inr (.inr ⟨1, 5, ⟨by decide, by decide⟩, by decide, rfl,
      .inr (.inr (.inr (.inr ⟨4, ⟨⟨rfl, rfl, by decide⟩, [4, 7], ⟨rfl, rfl, rfl⟩, by decide⟩,
        by decide, by decide, by decide⟩)))⟩)
  have hset : (base ++ (data 0x10 ++ [1, 2, 3])).set 133 0x65 =
      base ++ (data 0x65 ++ [1, 2, 3]) := by
    subst hbase hdata
    rfl
  have hfirst : IgnoredEdit (base ++ (data 0x10 ++ [1, 2, 3])) (base ++ (data 0x65 ++ [1, 2, 3])) :=
    hset ▸ ignoredEdit_set hignored 0x65
  have hsecond : IgnoredEdit (base ++ (data 0x65 ++ [1, 2, 3]))
      (base ++ (foreign ++ (data 0x65 ++ [1, 2, 3]))) := by
    subst hbase hforeign
    exact .insert (by decide) (by decide) (by decide) (by decide)
  have hthird : IgnoredEdit (base ++ (foreign ++ (data 0x65 ++ [1, 2, 3])))
      (base ++ foreign ++ data 0x65 ++ []) := by
    have hwhole : base ++ (foreign ++ (data 0x65 ++ [1, 2, 3])) =
        base ++ foreign ++ data 0x65 ++ [1, 2, 3] := by
      simp only [List.append_assoc]
    rw [hwhole]
    subst hbase hforeign hdata
    exact .replaceEnd (by decide) (by decide) (by decide)
  have hedits := ((Relation.ReflTransGen.single hfirst).tail hsecond).tail hthird
  obtain ⟨identity, h⟩ := exists_of_isSome hread
  refine ⟨_, _, identity, h, hedits, decode_of_ignoredEdits h hedits, ?_⟩
  subst hbase hforeign hdata
  decide

end VideoOutput.Edid
