import VideoOutput.Proofs.Grammar

/-!
# Reading whole blobs

What `decode` does with a whole blob. Under the lenient policy a blob is read exactly if its base
block has the right length and header and every extension block that is read is well-formed, and
what a refusal names is the first thing wrong (`decode_lenient_iff`). The strict policy adds the
checksum and the number of extension blocks to this and changes nothing else (`decode_strict_eq`).

The extension blocks that count are the whole blocks behind the first one, however many the base
block declares; a partial block at the end is none (`extensionBlocks_eq`). They are read in their
order, and `FirstFaultAt` names the first one that is faulty together with the offset of its fault.

What is read from a readable blob is gathered block by block. The address of the display and the two
marks beside it are three fields, each overwritten by every HDMI vendor block that is met. That they
agree with each other in the end is not part of the data, so it is an invariant of the gathering
(`IsInStep`): it holds of the base block alone and every extension block keeps it.
-/

namespace VideoOutput.Edid

/-- Every extension block that is read is well-formed. -/
def IsReadable (blob : List UInt8) : Prop :=
  ∀ n, HasExtension blob n → IsRead (blockAt blob n) → WellFormed (blockAt blob n)

/-- The first extension block that is read and not well-formed is block `n`, and its first fault
stands at `o`. -/
def FirstFaultAt (blob : List UInt8) (n o : Nat) : Prop :=
  HasExtension blob n ∧ IsRead (blockAt blob n) ∧ ¬ WellFormed (blockAt blob n) ∧
    FaultAt (blockAt blob n) o ∧
    ∀ k, HasExtension blob k → k < n → IsRead (blockAt blob k) → WellFormed (blockAt blob k)

/-! ## Extension blocks by number -/

variable {blob : List UInt8} {currentYear : Nat}

/-- Pieces are the stretches at the multiples of their length. -/
theorem pieces_eq_map (size count : Nat) (bytes : List UInt8) :
    Bytes.pieces size count bytes =
      (List.range count).map fun i => (bytes.drop (size * i)).take size := by
  induction count generalizing bytes with
  | zero => rfl
  | succ count ih =>
    rw [Bytes.pieces, ih, List.range_succ_eq_map, List.map_cons, List.map_map]
    congr 1
    apply List.map_congr_left
    intro i _
    show ((bytes.drop size).drop (size * i)).take size = (bytes.drop (size * (i + 1))).take size
    rw [List.drop_drop, Nat.mul_succ, Nat.add_comm]

/-- The reader's extension blocks are the whole blocks behind the first. -/
theorem extensionBlocks_eq (blob : List UInt8) :
    extensionBlocks blob = (List.range' 1 (blob.length / 128 - 1)).map (blockAt blob) := by
  unfold extensionBlocks
  rw [pieces_eq_map, List.range'_eq_map_range, List.map_map]
  apply List.map_congr_left
  intro i _
  show ((blob.drop 128).drop (128 * i)).take 128 = (blob.drop (128 * (1 + i))).take 128
  rw [List.drop_drop, Nat.mul_add]

theorem hasExtension_iff {n : Nat} :
    HasExtension blob n ↔ 1 ≤ n ∧ n < 1 + (blob.length / 128 - 1) := by
  unfold HasExtension
  omega

theorem length_blockAt {n : Nat} (h : HasExtension blob n) : (blockAt blob n).length = 128 := by
  unfold HasExtension at h
  unfold blockAt
  rw [List.length_take, List.length_drop]
  omega

/-! ## The first fault of a blob -/

/-- Going through blocks in their order, either none has a fault or the first one with a fault is
reported. -/
theorem firstFault?_map (f : Nat → List UInt8) (i m : Nat) :
    ((∀ n, i ≤ n → n < i + m → (Extension.ofBlock (f n)).fault? = none) ∧
        firstFault? i ((List.range' i m).map f) = none) ∨
      ∃ n o, i ≤ n ∧ n < i + m ∧ (Extension.ofBlock (f n)).fault? = some o ∧
        (∀ k, i ≤ k → k < n → (Extension.ofBlock (f k)).fault? = none) ∧
        firstFault? i ((List.range' i m).map f) = some (.truncated n o) := by
  induction m generalizing i with
  | zero => exact .inl ⟨fun n hle hlt => absurd hle (by omega), rfl⟩
  | succ m ih =>
    rw [List.range'_succ, List.map_cons, firstFault?]
    -- the first block decides unless it is in order
    cases hi : (Extension.ofBlock (f i)).fault? with
    | some o =>
      exact .inr ⟨i, o, Nat.le_refl i, by omega, hi, fun k hle hlt => absurd hle (by omega), rfl⟩
    | none =>
      have hfrom : ∀ {k : Nat}, i ≤ k → (i + 1 ≤ k → (Extension.ofBlock (f k)).fault? = none) →
          (Extension.ofBlock (f k)).fault? = none := by
        intro k hle hrest
        rcases Nat.eq_or_lt_of_le hle with rfl | hlt
        · exact hi
        · exact hrest hlt
      rcases ih (i + 1) with ⟨hnone, heq⟩ | ⟨n, o, hle, hlt, hfault, hbefore, heq⟩
      · exact .inl ⟨fun k hle hlt => hfrom hle fun h => hnone k h (by omega), heq⟩
      · exact .inr ⟨n, o, by omega, by omega, hfault,
          fun k hle hlt => hfrom hle fun h => hbefore k h hlt, heq⟩

/-- The same for the extension blocks of a blob, in terms of the grammar. -/
theorem firstFault?_extensionBlocks (blob : List UInt8) :
    (IsReadable blob ∧ firstFault? 1 (extensionBlocks blob) = none) ∨
      ∃ n o, FirstFaultAt blob n o ∧
        firstFault? 1 (extensionBlocks blob) = some (.truncated n o) := by
  rw [extensionBlocks_eq]
  rcases firstFault?_map (blockAt blob) 1 (blob.length / 128 - 1) with
    ⟨hnone, heq⟩ | ⟨n, o, hle, hlt, hfault, hbefore, heq⟩
  · refine .inl ⟨fun n hn => ?_, heq⟩
    obtain ⟨hle, hlt⟩ := hasExtension_iff.mp hn
    exact (fault?_eq_none_iff (length_blockAt hn)).mp (hnone n hle hlt)
  · have hn : HasExtension blob n := hasExtension_iff.mpr ⟨hle, hlt⟩
    obtain ⟨hread, hat⟩ := (fault?_eq_some_iff (length_blockAt hn)).mp hfault
    refine .inr ⟨n, o, ⟨hn, hread, hat.not_wellFormed, hat, fun k hk hkn => ?_⟩, heq⟩
    exact (fault?_eq_none_iff (length_blockAt hk)).mp (hbefore k hk.1 hkn)

theorem FirstFaultAt.not_isReadable {n o : Nat} (h : FirstFaultAt blob n o) : ¬ IsReadable blob :=
  fun hr => h.2.2.1 (hr n h.1 h.2.1)

/-- A blob has at most one first fault. -/
theorem FirstFaultAt.unique {n o n' o' : Nat} (h : FirstFaultAt blob n o)
    (h' : FirstFaultAt blob n' o') : n = n' ∧ o = o' := by
  obtain ⟨hn, hread, hill, hat, hbefore⟩ := h
  obtain ⟨hn', hread', hill', hat', hbefore'⟩ := h'
  rcases Nat.lt_trichotomy n n' with hlt | rfl | hgt
  · exact absurd (hbefore' n hn hlt hread) hill
  · exact ⟨rfl, hat.unique hat'⟩
  · exact absurd (hbefore n' hn' hgt hread') hill'

/-! ## The base block -/

/-- What is looked at before everything else. -/
theorem baseBlock_cases (blob : List UInt8) :
    (blob.length < 128 ∧ baseBlock blob = .error (.tooShort blob.length)) ∨
      (128 ≤ blob.length ∧ blob.take 8 ≠ [0x00, 0xFF, 0xFF, 0xFF, 0xFF, 0xFF, 0xFF, 0x00] ∧
        baseBlock blob = .error .badHeader) ∨
      (128 ≤ blob.length ∧ blob.take 8 = [0x00, 0xFF, 0xFF, 0xFF, 0xFF, 0xFF, 0xFF, 0x00] ∧
        baseBlock blob = .ok (blob.take blockLength)) := by
  unfold baseBlock
  by_cases hlen : blob.length < blockLength
  · rw [if_pos hlen]
    exact .inl ⟨hlen, rfl⟩
  · have hlong : 128 ≤ blob.length := Nat.not_lt.mp hlen
    rw [if_neg hlen]
    by_cases hmagic : blob.take 8 = header
    · rw [if_neg (not_not_intro hmagic)]
      exact .inr (.inr ⟨hlong, hmagic, rfl⟩)
    · rw [if_pos hmagic]
      exact .inr (.inl ⟨hlong, hmagic, rfl⟩)

/-- A blob without a base block is refused under every policy, -/
theorem decode_of_baseBlock_error {e : ReadError} (h : baseBlock blob = .error e)
    (policy : ChecksumPolicy) (currentYear : Nat) :
    decode policy currentYear blob = .error e := by
  unfold decode
  rw [h]

/-- and by the validator. -/
theorem validate_of_baseBlock_error {e : ReadError} (h : baseBlock blob = .error e) :
    validate blob = .error e := by
  unfold validate
  rw [h]

/-- Of a base block the validator looks at the checksum only. -/
theorem validate_of_baseBlock_ok {base : List UInt8} (h : baseBlock blob = .ok base) :
    validate blob = .ok () ∨ ∃ sum, validate blob = .error (.badChecksum 0 sum) := by
  unfold validate
  rw [h]
  dsimp only
  split
  next => exact .inl rfl
  next => exact .inr ⟨_, rfl⟩

/-! ## The lenient policy -/

/-- Behind a base block the lenient policy refuses faulty extension blocks only. -/
theorem decode_lenient_of_baseBlock_ok {base : List UInt8} (h : baseBlock blob = .ok base)
    (currentYear : Nat) :
    (IsReadable blob ∧ ∃ identity, decode .lenient currentYear blob = .ok identity) ∨
      ∃ n o, FirstFaultAt blob n o ∧
        decode .lenient currentYear blob = .error (.truncated n o) := by
  unfold decode
  rw [h]
  dsimp only
  rw [if_neg (by simp), if_neg (by simp)]
  rcases firstFault?_extensionBlocks blob with ⟨hread, heq⟩ | ⟨n, o, hat, heq⟩
  · rw [heq]
    exact .inl ⟨hread, _, rfl⟩
  · rw [heq]
    exact .inr ⟨n, o, hat, rfl⟩

/-- **The lenient policy accepts the grammar and reports the first violation.** A blob is refused for
its length, for its header, or for the first extension block that is not well-formed and the first
fault in it; it is read in every other case, and there is no other refusal. -/
theorem decode_lenient_iff (currentYear : Nat) (blob : List UInt8) :
    (∀ n, decode .lenient currentYear blob = .error (.tooShort n) ↔
      blob.length < 128 ∧ n = blob.length) ∧
    (decode .lenient currentYear blob = .error .badHeader ↔
      128 ≤ blob.length ∧ blob.take 8 ≠ [0x00, 0xFF, 0xFF, 0xFF, 0xFF, 0xFF, 0xFF, 0x00]) ∧
    ((∃ identity, decode .lenient currentYear blob = .ok identity) ↔
      128 ≤ blob.length ∧ blob.take 8 = [0x00, 0xFF, 0xFF, 0xFF, 0xFF, 0xFF, 0xFF, 0x00] ∧
        IsReadable blob) ∧
    (∀ n o, decode .lenient currentYear blob = .error (.truncated n o) ↔
      128 ≤ blob.length ∧ blob.take 8 = [0x00, 0xFF, 0xFF, 0xFF, 0xFF, 0xFF, 0xFF, 0x00] ∧
        FirstFaultAt blob n o) ∧
    ∀ e, decode .lenient currentYear blob = .error e →
      (∃ n, e = .tooShort n) ∨ e = .badHeader ∨ ∃ n o, e = .truncated n o := by
  -- three of the four answers are decided in front of the extension blocks
  rcases baseBlock_cases blob with ⟨hlen, hb⟩ | ⟨hlen, hmagic, hb⟩ | ⟨hlen, hmagic, hb⟩
  · rw [decode_of_baseBlock_error hb]
    refine ⟨fun n => ?_, ?_, ?_, fun n o => ?_, fun e he => ?_⟩
    · simp [hlen, eq_comm]
    · simp [Nat.not_le.mpr hlen]
    · simp [Nat.not_le.mpr hlen]
    · simp [Nat.not_le.mpr hlen]
    · exact .inl ⟨_, (Except.error.inj he).symm⟩
  · rw [decode_of_baseBlock_error hb]
    refine ⟨fun n => ?_, ?_, ?_, fun n o => ?_, fun e he => ?_⟩
    · simp [Nat.not_lt.mpr hlen]
    · simp [hlen, hmagic]
    · simp [hmagic]
    · simp [hmagic]
    · exact .inr (.inl (Except.error.inj he).symm)
  · -- with a base block the extension blocks decide
    rcases decode_lenient_of_baseBlock_ok hb currentYear with
      ⟨hread, identity, heq⟩ | ⟨n, o, hat, heq⟩
    · rw [heq]
      refine ⟨fun n => ?_, ?_, ?_, fun n o => ?_, fun e he => absurd he (by simp)⟩
      · simp [Nat.not_lt.mpr hlen]
      · simp [hmagic]
      · simp [hlen, hmagic, hread]
      · exact ⟨fun h => absurd h (by simp), fun h => absurd hread h.2.2.not_isReadable⟩
    · rw [heq]
      refine ⟨fun n' => ?_, ?_, ?_, fun n' o' => ?_, fun e he => ?_⟩
      · simp [Nat.not_lt.mpr hlen]
      · simp [hmagic]
      · simp [hat.not_isReadable]
      · rw [Except.error.injEq, ReadError.truncated.injEq]
        refine ⟨?_, fun h => hat.unique h.2.2⟩
        rintro ⟨rfl, rfl⟩
        exact ⟨hlen, hmagic, hat⟩
      · exact .inr (.inr ⟨n, o, (Except.error.inj he).symm⟩)

/-! ## The fields that HDMI vendor blocks write -/

namespace Identity

/-- What the HDMI vendor blocks met so far have written: the display is an HDMI display exactly if
there is an address, and it is behind a repeater exactly if moreover the second component of that
address is not zero. -/
structure IsInStep (identity : Identity) : Prop where
  isHdmi_iff : identity.isHdmi = true ↔ identity.address ≠ none
  isRepeater_iff : identity.isRepeater = true ↔ ∃ p, identity.address = some p ∧ p.b ≠ 0

/-- A base block writes none of the three fields, -/
theorem isInStep_ofBase (base : List UInt8) (currentYear : Nat) :
    (ofBase base currentYear).IsInStep where
  isHdmi_iff := by simp [ofBase]
  isRepeater_iff := by simp [ofBase]

/-- and an HDMI vendor block all three at once, whatever they were before. -/
theorem isInStep_meetHdmi (identity : Identity) (address : PhysicalAddress) :
    (identity.meetHdmi address).IsInStep where
  isHdmi_iff := by simp [meetHdmi]
  isRepeater_iff := by simp [meetHdmi]

/-- Every HDMI vendor block writes all three of the fields, so they stay in step. -/
theorem isInStep_foldl_meetHdmi {identity : Identity} (h : identity.IsInStep)
    (addresses : List PhysicalAddress) : (addresses.foldl meetHdmi identity).IsInStep := by
  induction addresses generalizing identity with
  | nil => exact h
  | cons address addresses ih => exact ih (isInStep_meetHdmi identity address)

theorem isInStep_foldl_meetExtension {identity : Identity} (h : identity.IsInStep)
    (extensions : List Extension) : (extensions.foldl meetExtension identity).IsInStep := by
  induction extensions generalizing identity with
  | nil => exact h
  | cons extension extensions ih => exact ih (isInStep_foldl_meetHdmi h extension.addresses)

/-- Extension blocks are met as their HDMI vendor blocks are, one behind the other. -/
theorem foldl_meetExtension (identity : Identity) (extensions : List Extension) :
    extensions.foldl meetExtension identity =
      (extensions.flatMap Extension.addresses).foldl meetHdmi identity := by
  rw [List.foldl_flatMap]
  rfl

/-- Of the HDMI vendor blocks only the last one is left, and nothing but the three fields has
changed. -/
theorem foldl_meetHdmi (identity : Identity) (addresses : List PhysicalAddress) :
    addresses.foldl meetHdmi identity =
      match addresses.getLast? with
      | none => identity
      | some address => identity.meetHdmi address := by
  induction addresses generalizing identity with
  | nil => rfl
  | cons address addresses ih =>
    rw [List.foldl_cons, ih, List.getLast?_cons]
    cases addresses.getLast? with
    | none => rfl
    | some later => rfl

end Identity

/-- The identity in one piece: what the base block tells, the name, and the three fields that the
last HDMI vendor block leaves. -/
theorem identityOf_eq (base : List UInt8) (extensions : List Extension) (currentYear : Nat) :
    identityOf base extensions currentYear =
      { Identity.ofBase base currentYear with
        monitorName := ((baseDescriptors base ++ extensions.flatMap Extension.descriptors).foldl
          MonitorName.feed {}).finish
        address := (extensions.flatMap Extension.addresses).getLast?
        isRepeater := (extensions.flatMap Extension.addresses).getLast?.any (·.b != 0)
        isHdmi := (extensions.flatMap Extension.addresses).getLast?.isSome } := by
  rw [identityOf, Identity.foldl_meetExtension, Identity.foldl_meetHdmi]
  cases (extensions.flatMap Extension.addresses).getLast? with
  | none => rfl
  | some address => rfl

theorem address_identityOf (base : List UInt8) (extensions : List Extension) (currentYear : Nat) :
    (identityOf base extensions currentYear).address =
      (extensions.flatMap Extension.addresses).getLast? := by
  rw [identityOf_eq]

/-- The name is fed by the descriptors of the base block first, then by those of the extension
blocks. -/
theorem monitorName_identityOf (base : List UInt8) (extensions : List Extension)
    (currentYear : Nat) :
    (identityOf base extensions currentYear).monitorName =
      ((baseDescriptors base ++ extensions.flatMap Extension.descriptors).foldl
        MonitorName.feed {}).finish := rfl

/-- The three fields of what is read from a blob are in step. -/
theorem isInStep_identityOf (base : List UInt8) (extensions : List Extension) (currentYear : Nat) :
    (identityOf base extensions currentYear).IsInStep :=
  have h := Identity.isInStep_foldl_meetExtension (Identity.isInStep_ofBase base currentYear)
    extensions
  ⟨h.isHdmi_iff, h.isRepeater_iff⟩

/-! ## The two policies -/

/-- The byte that declares the number of extension blocks is in the base block. -/
theorem get_take_blockLength (blob : List UInt8) {i : Nat} (hi : i < blockLength) :
    Bytes.get (blob.take blockLength) i = Bytes.get blob i := by
  unfold Bytes.get
  rw [List.getD_eq_getElem?_getD, List.getD_eq_getElem?_getD, List.getElem?_take_of_lt hi]

/-- A part of a block at the end is no extension block. -/
theorem length_extensionBlocks (blob : List UInt8) :
    (extensionBlocks blob).length = blob.length / 128 - 1 :=
  Bytes.length_pieces _ _ _

/-- The strict policy looks at the checksum and the declared extensions before everything else. -/
theorem decode_strict_eq (currentYear : Nat) (blob : List UInt8) :
    decode .strict currentYear blob =
      match validate blob with
      | .error e => .error e
      | .ok () =>
        if blob.length / 128 - 1 < (Bytes.get blob 0x7E).toNat then
          .error (.missingExtensions (Bytes.get blob 0x7E) (blob.length / 128 - 1))
        else decode .lenient currentYear blob := by
  rcases baseBlock_cases blob with ⟨-, hb⟩ | ⟨-, -, hb⟩ | ⟨-, -, hb⟩
  · rw [decode_of_baseBlock_error hb, validate_of_baseBlock_error hb]
  · rw [decode_of_baseBlock_error hb, validate_of_baseBlock_error hb]
  · unfold decode validate
    rw [hb]
    dsimp only
    rw [get_take_blockLength blob (by decide), length_extensionBlocks]
    by_cases hsum : Bytes.sum (blob.take blockLength) = 0
    · simp [hsum]
    · simp [hsum]

/-- A blob of which something is read is accepted. -/
theorem exists_of_isSome {policy : ChecksumPolicy}
    (h : (decode policy currentYear blob).toOption.isSome = true) :
    ∃ identity, decode policy currentYear blob = .ok identity := by
  cases heq : decode policy currentYear blob with
  | error e =>
    rw [heq] at h
    exact absurd h (by simp [Except.toOption])
  | ok identity => exact ⟨identity, rfl⟩

/-- What is read from a blob that is accepted, under whatever policy. -/
theorem identity_of_decode {policy : ChecksumPolicy} {identity : Identity}
    (h : decode policy currentYear blob = .ok identity) :
    IsReadable blob ∧ identity = identityOf (blob.take blockLength)
      ((extensionBlocks blob).map Extension.ofBlock) currentYear := by
  rcases baseBlock_cases blob with ⟨-, hb⟩ | ⟨-, -, hb⟩ | ⟨-, -, hb⟩
  · rw [decode_of_baseBlock_error hb] at h
    exact absurd h (by simp)
  · rw [decode_of_baseBlock_error hb] at h
    exact absurd h (by simp)
  · unfold decode at h
    rw [hb] at h
    dsimp only at h
    split at h
    next => exact absurd h (by simp)
    next =>
      split at h
      next => exact absurd h (by simp)
      next =>
        rcases firstFault?_extensionBlocks blob with ⟨hread, heq⟩ | ⟨n, o, -, heq⟩
        · rw [heq] at h
          exact ⟨hread, (Except.ok.inj h).symm⟩
        · rw [heq] at h
          exact absurd h (by simp)

/-- **How validator, strict and lenient policy agree.** The strict policy refuses what the validator
refuses, for the same reason; then a blob that declares more extension blocks than it holds; and
does with everything else what the lenient policy does. The lenient policy never complains about the
checksum or the number of extensions, and about length and header exactly as the validator does. -/
theorem decode_policies (currentYear : Nat) (blob : List UInt8) :
    (decode .strict currentYear blob =
      match validate blob with
      | .error e => .error e
      | .ok () =>
        if blob.length / 128 - 1 < (Bytes.get blob 0x7E).toNat then
          .error (.missingExtensions (Bytes.get blob 0x7E) (blob.length / 128 - 1))
        else decode .lenient currentYear blob) ∧
    (∀ n sum, decode .lenient currentYear blob ≠ .error (.badChecksum n sum)) ∧
    (∀ declared present,
      decode .lenient currentYear blob ≠ .error (.missingExtensions declared present)) ∧
    (∀ n, validate blob = .error (.tooShort n) ↔
      decode .lenient currentYear blob = .error (.tooShort n)) ∧
    (validate blob = .error .badHeader ↔
      decode .lenient currentYear blob = .error .badHeader) := by
  refine ⟨decode_strict_eq currentYear blob, ?_⟩
  rcases baseBlock_cases blob with ⟨-, hb⟩ | ⟨-, -, hb⟩ | ⟨-, -, hb⟩
  · rw [validate_of_baseBlock_error hb, decode_of_baseBlock_error hb]
    simp
  · rw [validate_of_baseBlock_error hb, decode_of_baseBlock_error hb]
    simp
  · -- nothing is wrong with length or header, so both sides of the last two are false
    rcases decode_lenient_of_baseBlock_ok hb currentYear with ⟨-, identity, hl⟩ | ⟨n, o, -, hl⟩
    · rcases validate_of_baseBlock_ok hb with hv | ⟨sum, hv⟩
      · simp [hl, hv]
      · simp [hl, hv]
    · rcases validate_of_baseBlock_ok hb with hv | ⟨sum, hv⟩
      · simp [hl, hv]
      · simp [hl, hv]

end VideoOutput.Edid
