import VideoOutput.Proofs.LastWrites
import VideoOutput.Proofs.NameText

/-!
# The identity of a drafted blob

What is read from a drafted blob is what the last steps set: the letters of the manufacturer as far
as they are capital letters, the numbers, the date, and the number of extension blocks. Each of
these is a fact about one region of the base block (`manufacturerOf_bytes`, `toNatLE_ofNatLE`,
`ofBytes?_eq`), put together in `identity_of_ofSteps`.

A name is longer than its slots or ends in them: in the first case the slot holds all bytes that a
reader keeps, in the second case the newline behind the name (`nameText_ofName`). So neither the
slots behind it nor the extension blocks can add to it.

The manufacturer is not stored as it is given. Five bits are kept of each letter, which is lossless
for capital letters; everything else is stored as no letter and is read as a question mark
(`lettersOf`). A year is stored as its distance from 1990 and read with the current year at hand: a
distance that leads beyond it is not a year to the reader.
-/

namespace VideoOutput

namespace Bytes

/-- A number is read back from its bytes, up to what they can hold. -/
theorem toNatLE_ofNatLE (width n : Nat) : toNatLE (ofNatLE width n) = n % 256 ^ width := by
  induction width generalizing n with
  | zero => rw [Nat.pow_zero, Nat.mod_one]; rfl
  | succ width ih =>
    have hpow : 256 ^ (width + 1) = 256 * 256 ^ width := Nat.pow_succ'
    rw [ofNatLE, toNatLE, ih, UInt8.toNat_ofNat', hpow, Nat.mod_mul]

/-- A byte of seven bits in the UTF-8 form of a character is the whole of it. -/
theorem eq_of_mem_utf8EncodeChar {c : Char} {b : UInt8} (h : b ∈ String.utf8EncodeChar c)
    (hb : b < 0x80) : c = Char.ofNat b.toNat := by
  have hlow : b.toNat < 0x80 := UInt8.lt_iff_toNat_lt.mp hb
  have hne : ∀ n, 0x80 ≤ n → n < 0x100 → b ≠ UInt8.ofNat n := by
    intro n hmin hmax heq
    rw [heq, UInt8.toNat_ofNat', Nat.mod_eq_of_lt (by omega)] at hlow
    omega
  unfold String.utf8EncodeChar at h
  dsimp only at h
  -- all bytes of the longer forms have the eighth bit
  split at h
  next hone =>
    rw [List.mem_singleton.mp h, UInt8.toNat_ofNat', Nat.mod_eq_of_lt (by omega)]
    exact (Char.ofNat_toNat c).symm
  next =>
    split at h
    next =>
      simp only [List.mem_cons, List.not_mem_nil, or_false] at h
      rcases h with h | h
      all_goals exact absurd h (hne _ (by omega) (by omega))
    next =>
      split at h
      next =>
        simp only [List.mem_cons, List.not_mem_nil, or_false] at h
        rcases h with h | h | h
        all_goals exact absurd h (hne _ (by omega) (by omega))
      next =>
        simp only [List.mem_cons, List.not_mem_nil, or_false] at h
        rcases h with h | h | h | h
        all_goals exact absurd h (hne _ (by omega) (by omega))

/-- A byte of seven bits in the UTF-8 form of a text is one of its characters. -/
theorem mem_of_mem_ofString {s : String} {b : UInt8} (h : b ∈ ofString s) (hb : b < 0x80) :
    Char.ofNat b.toNat ∈ s.toList := by
  obtain ⟨c, hc, hbc⟩ := List.mem_flatMap.mp h
  rw [← eq_of_mem_utf8EncodeChar hbc hb]
  exact hc

end Bytes

namespace Edid

/-! ## The manufacturer -/

/-- The letter at a place of a manufacturer's letters. What is missing or no capital letter is a
question mark. -/
def letterAt (id : String) (i : Nat) : Char :=
  match (Bytes.ofString id)[i]? with
  | some b => if 0x41 ≤ b ∧ b ≤ 0x5A then Char.ofNat b.toNat else '?'
  | none => '?'

/-- The three letters of a manufacturer. -/
def lettersOf (id : String) : String :=
  String.ofList ((List.range 3).map (letterAt id))

namespace Draft

theorem letterBits_lt (b : UInt8) : letterBits b < 32 := by
  unfold letterBits
  split
  next h =>
    have hle : b.toNat ≤ 0x5A := UInt8.le_iff_toNat_le.mp h.2
    omega
  next => decide

/-- Five bits are read as the letter that they were written for. -/
theorem letterOf_letterBits (b : UInt8) :
    letterOf (letterBits b) = if 0x41 ≤ b ∧ b ≤ 0x5A then Char.ofNat b.toNat else '?' := by
  unfold letterBits letterOf
  by_cases h : 0x41 ≤ b ∧ b ≤ 0x5A
  · have hmin : 0x41 ≤ b.toNat := UInt8.le_iff_toNat_le.mp h.1
    have hmax : b.toNat ≤ 0x5A := UInt8.le_iff_toNat_le.mp h.2
    rw [if_pos h, if_pos h, if_pos (by omega), show 0x40 + (b.toNat - 0x40) = b.toNat by omega]
  · rw [if_neg h, if_neg h]
    rfl

/-- The letter that is read for a byte that may be missing. -/
theorem letterAt_eq (id : String) (i : Nat) :
    letterAt id i = letterOf (letterBits (Bytes.get (Bytes.ofString id) i)) := by
  unfold letterAt Bytes.get
  rw [List.getD_eq_getElem?_getD]
  cases (Bytes.ofString id)[i]? with
  | none => decide
  | some b => exact (letterOf_letterBits b).symm

/-- Of a manufacturer three bytes are stored, zeros where it has fewer. -/
theorem fit_three (bytes : List UInt8) :
    Bytes.fit 3 bytes = [Bytes.get bytes 0, Bytes.get bytes 1, Bytes.get bytes 2] := by
  match bytes with
  | [] | [_] | [_, _] | _ :: _ :: _ :: _ => rfl

/-- The three letters are read from the two bytes they were packed into. -/
theorem manufacturerOf_bytes (id : String) :
    manufacturerOf (Bytes.get (manufacturerBytes id) 0) (Bytes.get (manufacturerBytes id) 1) =
      lettersOf id := by
  have h₀ := letterBits_lt (Bytes.get (Bytes.ofString id) 0)
  have h₁ := letterBits_lt (Bytes.get (Bytes.ofString id) 1)
  have h₂ := letterBits_lt (Bytes.get (Bytes.ofString id) 2)
  have hletters : lettersOf id = String.ofList [letterAt id 0, letterAt id 1, letterAt id 2] := rfl
  rw [hletters, letterAt_eq, letterAt_eq, letterAt_eq, manufacturerBytes, fit_three]
  simp only [List.foldl_cons, List.foldl_nil, Nat.zero_mul, Nat.zero_add]
  generalize letterBits (Bytes.get (Bytes.ofString id) 0) = l₀ at h₀ ⊢
  generalize letterBits (Bytes.get (Bytes.ofString id) 1) = l₁ at h₁ ⊢
  generalize letterBits (Bytes.get (Bytes.ofString id) 2) = l₂ at h₂ ⊢
  have hhigh : Bytes.get (Bytes.ofNatLE 2 ((l₀ * 32 + l₁) * 32 + l₂)).reverse 0 =
      UInt8.ofNat (((l₀ * 32 + l₁) * 32 + l₂) / 256) := rfl
  have hlow : Bytes.get (Bytes.ofNatLE 2 ((l₀ * 32 + l₁) * 32 + l₂)).reverse 1 =
      UInt8.ofNat ((l₀ * 32 + l₁) * 32 + l₂) := rfl
  -- fifteen bits fit into the two bytes
  have hpacked : ((l₀ * 32 + l₁) * 32 + l₂) / 256 % 2 ^ 8 * 256 +
      ((l₀ * 32 + l₁) * 32 + l₂) % 2 ^ 8 = (l₀ * 32 + l₁) * 32 + l₂ := by
    omega
  rw [hhigh, hlow, manufacturerOf, UInt8.toNat_ofNat', UInt8.toNat_ofNat', hpacked,
    show ((l₀ * 32 + l₁) * 32 + l₂) / 1024 % 32 = l₀ by omega,
    show ((l₀ * 32 + l₁) * 32 + l₂) / 32 % 32 = l₁ by omega,
    show ((l₀ * 32 + l₁) * 32 + l₂) % 32 = l₂ by omega]

end Draft

/-! ## The date -/

/-- The date in two bytes: none for the weeks from 55 to 254, and otherwise a week if it is one of the
year and a year if it has come. -/
theorem ofBytes?_eq (week rawYear : UInt8) (currentYear : Nat) :
    ManufactureDate.ofBytes? week rawYear currentYear =
      if 55 ≤ week.toNat ∧ week.toNat ≤ 254 then none
      else some {
        week := if 1 ≤ week.toNat ∧ week.toNat ≤ 54 then some week else none
        year := if 1990 + rawYear.toNat ≤ currentYear then some (1990 + rawYear.toNat) else none
        rawYear := rawYear
        isModelYear := week = 0xFF } := by
  have hlt := week.toNat_lt
  have hzero : week = 0 ↔ week.toNat = 0 := UInt8.toNat_inj.symm
  have hmin : 55 ≤ week ↔ 55 ≤ week.toNat := UInt8.le_iff_toNat_le
  have hlast : week = 255 ↔ week.toNat = 255 := UInt8.toNat_inj.symm
  have hinvalid : ManufactureDate.isInvalidWeek week = true ↔
      55 ≤ week.toNat ∧ week.toNat ≤ 254 := by
    unfold ManufactureDate.isInvalidWeek
    rw [Bool.and_eq_true, decide_eq_true_eq, decide_eq_true_eq, hmin, Ne, hlast]
    omega
  unfold ManufactureDate.ofBytes?
  simp only [hinvalid]
  -- a week of 55 to 254 makes the whole date unknown
  by_cases hweek : 55 ≤ week.toNat ∧ week.toNat ≤ 254
  · rw [if_pos hweek, if_pos hweek]
  · rw [if_neg hweek, if_neg hweek]
    -- 0 stands for no week and 255 for the year of a model
    by_cases hnone : week = 0 ∨ week = 255
    · have hno : ¬ (1 ≤ week.toNat ∧ week.toNat ≤ 54) := by
        rw [hzero, hlast] at hnone
        omega
      rw [if_pos hnone, if_neg hno]
    · have hyes : 1 ≤ week.toNat ∧ week.toNat ≤ 54 := by
        rw [hzero, hlast] at hnone
        omega
      rw [if_neg hnone, if_pos hyes]

/-! ## The name -/

/-- A name descriptor holds the first thirteen bytes of its piece, and something behind them. -/
theorem pieceOf_ofName (text : List UInt8) :
    ∃ filler, pieceOf (Descriptor.ofName text).toList = text.take 13 ++ filler := by
  obtain ⟨filler, hfiller⟩ : ∃ filler : UInt8, filler = if newline ∈ text.take 13 then 0x20 else 0 :=
    ⟨_, rfl⟩
  have hlength : (text.take 13 ++ List.replicate (13 - (text.take 13).length) filler).length =
      13 := by
    rw [List.length_append, List.length_replicate, List.length_take]
    omega
  refine ⟨List.replicate (13 - (text.take 13).length) filler, ?_⟩
  rw [hfiller] at hlength ⊢
  -- the five leading bytes are dropped, and the thirteen behind them need no zeros to fill them up
  exact List.take_left' hlength

/-- Bytes that hold no zero and no newline are kept. -/
theorem keptBytes_append {plain : List UInt8} (hplain : ∀ b ∈ plain, b ≠ 0x0A ∧ b ≠ 0)
    (rest : List UInt8) :
    keptBytes (plain ++ rest) =
      (plain ++ (rest.takeWhile (· ≠ 0x0A)).filter (· ≠ 0)).take 13 := by
  have hfront : ∀ b ∈ plain, decide (b ≠ 0x0A) = true := fun b hb => by simpa using (hplain b hb).1
  have hkept : plain.filter (· ≠ 0) = plain :=
    List.filter_eq_self.mpr fun b hb => by simpa using (hplain b hb).2
  rw [keptBytes, List.takeWhile_append_of_pos hfront, List.filter_append, hkept]

/-- Behind the descriptor of a name nothing can be added to it: either it holds as many bytes as a
name may have, or the newline. -/
theorem nameText_ofName {plain : List UInt8} (hplain : ∀ b ∈ plain, b ≠ 0x0A ∧ b ≠ 0)
    (rest : List UInt8) :
    nameText (pieceOf (Descriptor.ofName (plain ++ [newline])).toList ++ rest) =
      asciiText (plain.take 13) := by
  obtain ⟨filler, hpiece⟩ := pieceOf_ofName (plain ++ [newline])
  rw [hpiece, nameText, List.append_assoc]
  congr 1
  by_cases hfit : plain.length < 13
  · have hall : (plain ++ [newline]).take 13 = plain ++ [newline] :=
      List.take_of_length_le (by rw [List.length_append, List.length_singleton]; omega)
    rw [hall, List.append_assoc, keptBytes_append hplain, List.singleton_append,
      List.takeWhile_cons_of_neg (by decide), List.filter_nil, List.append_nil]
  · have hfull : (plain ++ [newline]).take 13 = plain.take 13 :=
      List.take_append_of_le_length (by omega)
    have hplain' : ∀ b ∈ plain.take 13, b ≠ 0x0A ∧ b ≠ 0 := fun b hb =>
      hplain b (List.mem_of_mem_take hb)
    have hlength : (plain.take 13).length = 13 := by
      rw [List.length_take]
      omega
    rw [hfull, keptBytes_append hplain', List.take_left' hlength]

namespace Draft

/-! ## The identity -/

variable {steps : List Step} {policy : ChecksumPolicy} {currentYear : Nat} {identity : Identity}

/-- The descriptor that the steps leave in a slot. -/
def lastDescriptor (steps : List Step) (i : Fin 4) : Descriptor :=
  (steps.filterMap (Step.descriptor? i)).getLastD
    (if i.val = 0 then .timing1080p60 else .unused)

/-- An identity tells what the last steps of each kind set. -/
structure IsToldBy (steps : List Step) (currentYear : Nat) (identity : Identity) : Prop where
  manufacturer : identity.manufacturer =
    lettersOf ((steps.filterMap Step.manufacturer?).getLastD "RPI")
  productCode : identity.productCode = (steps.filterMap Step.productCode?).getLastD 0
  serialNumber : identity.serialNumber = (steps.filterMap Step.serialNumber?).getLastD 0
  manufactured :
    let (week, rawYear) := (steps.filterMap Step.manufactured?).getLastD (0, 0)
    identity.manufactured =
      if 55 ≤ week.toNat ∧ week.toNat ≤ 254 then none
      else some {
        week := if 1 ≤ week.toNat ∧ week.toNat ≤ 54 then some week else none
        year := if 1990 + rawYear.toNat ≤ currentYear then some (1990 + rawYear.toNat) else none
        rawYear := rawYear
        isModelYear := week = 0xFF }
  extensionCount : identity.extensionCount.toNat =
    min (steps.filterMap Step.extension?).length 255

/-- The manufacturer is that of the last step that sets one, and has a default. -/
theorem manufacturer_ofSteps (steps : List Step) :
    (ofSteps steps).manufacturer = (steps.filterMap Step.manufacturer?).getLastD "RPI" :=
  foldl_apply_eq (fun draft step => congrArg Draft.manufacturer (apply_eq draft step)) {} steps

theorem productCode_ofSteps (steps : List Step) :
    (ofSteps steps).productCode = (steps.filterMap Step.productCode?).getLastD 0 :=
  foldl_apply_eq (fun draft step => congrArg Draft.productCode (apply_eq draft step)) {} steps

theorem serialNumber_ofSteps (steps : List Step) :
    (ofSteps steps).serialNumber = (steps.filterMap Step.serialNumber?).getLastD 0 :=
  foldl_apply_eq (fun draft step => congrArg Draft.serialNumber (apply_eq draft step)) {} steps

/-- The week and the year are set together, so the last step that sets a date decides both. -/
theorem date_ofSteps (steps : List Step) :
    ((ofSteps steps).week, (ofSteps steps).year) =
      (steps.filterMap Step.manufactured?).getLastD (0, 0) :=
  @foldl_apply_eq _ (fun draft => (draft.week, draft.year)) _
    (fun draft step => congrArg (fun draft => (draft.week, draft.year)) (apply_eq draft step)) {} steps

/-- Each slot has the last descriptor that a step put there. -/
theorem slots_ofSteps (steps : List Step) (i : Fin 4) :
    (ofSteps steps).slots.get i = lastDescriptor steps i := by
  have hfresh : ({} : Draft).slots.get i = if i.val = 0 then .timing1080p60 else .unused := by
    match i with
    | 0 | 1 | 2 | 3 => rfl
  rw [lastDescriptor, ← hfresh]
  exact @foldl_apply_eq _ (fun draft => draft.slots.get i) _
    (fun draft step => slots_apply draft step i) {} steps

/-- A byte of a region is found behind where the region starts. -/
theorem get_base (r : Region) (draft : Draft) {i : Nat} (hi : i < r.size) :
    Bytes.get draft.base (r.offset + i) = Bytes.get (r.bytesOf draft) i := by
  rw [← take_drop_base, get_take_drop _ _ hi]

/-- Whatever a reader makes of the blob under either policy is told by the steps. -/
theorem isToldBy_of_decode (h : decode policy currentYear (ofSteps steps).blob = .ok identity) :
    IsToldBy steps currentYear identity := by
  obtain ⟨-, hidentity⟩ := identity_of_decode h
  rw [take_blob, identityOf_eq] at hidentity
  subst hidentity
  -- each field is read from its region, which holds what the last step for it wrote
  refine ⟨?_, ?_, ?_, ?_, ?_⟩
  · rw [← manufacturer_ofSteps, ← manufacturerOf_bytes]
    exact congrArg₂ manufacturerOf (get_base .manufacturer (ofSteps steps) (by decide : 0 < 2))
      (get_base .manufacturer (ofSteps steps) (by decide : 1 < 2))
  · rw [← productCode_ofSteps]
    have hsmall : (ofSteps steps).productCode.toNat < 256 ^ 2 := (ofSteps steps).productCode.toNat_lt
    have hbytes : ((ofSteps steps).base.drop 0x0A).take 2 =
        Bytes.ofNatLE 2 (ofSteps steps).productCode.toNat := take_drop_base .productCode _
    show UInt16.ofNat (Bytes.toNatLE (((ofSteps steps).base.drop 0x0A).take 2)) = _
    rw [hbytes, Bytes.toNatLE_ofNatLE, Nat.mod_eq_of_lt hsmall,
      UInt16.ofNat_toNat]
  · rw [← serialNumber_ofSteps]
    have hsmall : (ofSteps steps).serialNumber.toNat < 256 ^ 4 := (ofSteps steps).serialNumber.toNat_lt
    have hbytes : ((ofSteps steps).base.drop 0x0C).take 4 =
        Bytes.ofNatLE 4 (ofSteps steps).serialNumber.toNat := take_drop_base .serialNumber _
    show UInt32.ofNat (Bytes.toNatLE (((ofSteps steps).base.drop 0x0C).take 4)) = _
    rw [hbytes, Bytes.toNatLE_ofNatLE, Nat.mod_eq_of_lt hsmall,
      UInt32.ofNat_toNat]
  · rw [← date_ofSteps]
    have hweek : Bytes.get (ofSteps steps).base 0x10 = (ofSteps steps).week :=
      get_base .date _ (by decide : 0 < 2)
    have hyear : Bytes.get (ofSteps steps).base 0x11 = (ofSteps steps).year :=
      get_base .date _ (by decide : 1 < 2)
    show ManufactureDate.ofBytes? (Bytes.get (ofSteps steps).base 0x10)
      (Bytes.get (ofSteps steps).base 0x11) currentYear = _
    rw [hweek, hyear]
    exact ofBytes?_eq _ _ currentYear
  · rw [← extensions_ofSteps, ← get_blob_declared, ← get_take_blockLength _ (by decide), take_blob]
    rfl

/-- The pieces of a name start with the one in the second slot if there is none in the first. -/
theorem monitorName_of_ofSteps (h : decode policy currentYear (ofSteps steps).blob = .ok identity)
    (hfirst : isNameDescriptor (lastDescriptor steps 0).toList = false) :
    ∃ rest, identity.monitorName = nameText (pieceOf (lastDescriptor steps 1).toList ++ rest) := by
  obtain ⟨-, hidentity⟩ := identity_of_decode h
  rw [take_blob] at hidentity
  have hnone : pieceOf (lastDescriptor steps 0).toList = [] := by
    rw [pieceOf, hfirst]
    rfl
  have hname : identity.monitorName = nameText ((baseDescriptors (ofSteps steps).base ++
      ((extensionBlocks (ofSteps steps).blob).map Extension.ofBlock).flatMap
        Extension.descriptors).flatMap pieceOf) := by
    rw [hidentity]
    exact finish_foldl_feed _
  rw [List.flatMap_append, baseDescriptors_base, toList_slots, List.flatMap_map, List.flatMap_cons,
    List.flatMap_cons] at hname
  rw [show (ofSteps steps).slots.get 0 = lastDescriptor steps 0 from slots_ofSteps steps 0,
    show (ofSteps steps).slots.get 1 = lastDescriptor steps 1 from slots_ofSteps steps 1, hnone,
    List.nil_append, List.append_assoc] at hname
  exact ⟨_, hname⟩

/-- The descriptor of a name stays in the second slot unless a later step writes the slot. -/
theorem lastDescriptor_of_monitorName {before behind : List Step} {name : String}
    (hlast : ∀ step ∈ behind, step.descriptor? 1 = none) :
    lastDescriptor (before ++ .monitorName name :: behind) 1 =
      .ofName (Bytes.ofString name ++ [newline]) := by
  have hbehind : behind.filterMap (Step.descriptor? 1) = [] := List.filterMap_eq_nil_iff.mpr hlast
  have hname : (Step.monitorName name).descriptor? 1 =
      some (.ofName (Bytes.ofString name ++ [newline])) := rfl
  rw [lastDescriptor, List.filterMap_append, List.filterMap_cons_some hname, hbehind,
    List.getLastD_eq_getLast?, List.getLast?_concat, Option.getD_some]

/-- A text without zero and newline has no such bytes in its UTF-8 form. -/
theorem plain_ofString {name : String} (hzero : '\x00' ∉ name.toList) (hend : '\n' ∉ name.toList) :
    ∀ b ∈ Bytes.ofString name, b ≠ 0x0A ∧ b ≠ 0 := by
  intro b hb
  constructor
  · rintro rfl
    exact hend (Bytes.mem_of_mem_ofString hb (by decide))
  · rintro rfl
    exact hzero (Bytes.mem_of_mem_ofString hb (by decide))

/-- **What is read from a drafted blob is what was set.** Manufacturer, numbers, date and the number
of extension blocks are those of the last steps for them. If a name was stored, no later step writes
the slot where it starts, and the first slot holds no name, then the name that is read consists of
the first thirteen bytes of it, whatever the other slots and the extension blocks hold. -/
theorem identity_of_ofSteps (h : decode policy currentYear (ofSteps steps).blob = .ok identity) :
    IsToldBy steps currentYear identity ∧
      ∀ (before behind : List Step) (name : String),
        steps = before ++ .monitorName name :: behind →
        '\x00' ∉ name.toList → '\n' ∉ name.toList →
        (∀ step ∈ behind, step.descriptor? 1 = none) →
        isNameDescriptor (lastDescriptor steps 0).toList = false →
        identity.monitorName = asciiText ((Bytes.ofString name).take 13) := by
  refine ⟨isToldBy_of_decode h, ?_⟩
  intro before behind name hsteps hzero hend hlast hfirst
  obtain ⟨rest, hname⟩ := monitorName_of_ofSteps h hfirst
  rw [hname, hsteps, lastDescriptor_of_monitorName hlast]
  exact nameText_ofName (plain_ofString hzero hend) rest

set_option maxRecDepth 4000 in
/-- A name of fourteen bytes, two of which are no ASCII, between a name that it replaces and another
one in the fourth slot. -/
theorem identity_of_long_name :
    ∃ steps identity, decode .lenient 2026 (ofSteps steps).blob = .ok identity ∧
      .monitorName "Café du Monde" ∈ steps ∧
      isNameDescriptor (lastDescriptor steps 0).toList = false ∧
      identity.manufacturer = "S?M" ∧ identity.productCode = 0xABCD ∧
      identity.manufactured = some ⟨none, some 2024, 34, true⟩ ∧
      identity.extensionCount.toNat = 1 ∧ identity.monitorName = "Caf?? du Mond" := by
  obtain ⟨before, hbefore⟩ : ∃ before : List Step, before =
      [.descriptor 1 (.ofName [0x54, 0x56, 0x0A]), .manufacturer "SaM", .productCode 1] := ⟨_, rfl⟩
  obtain ⟨behind, hbehind⟩ : ∃ behind : List Step, behind =
      [.productCode 0xABCD, .manufactured 255 34, .descriptor 3 (.ofName [0x58, 0x0A]),
        .extension (.replicate 128 0)] := ⟨_, rfl⟩
  obtain ⟨steps, hsteps⟩ : ∃ steps, steps = before ++ .monitorName "Café du Monde" :: behind :=
    ⟨_, rfl⟩
  have hread : (decode .lenient 2026 (ofSteps steps).blob).toOption.isSome = true := by
    subst hsteps hbefore hbehind
    cbv
  have hlast : ∀ step ∈ behind, step.descriptor? 1 = none := by
    subst hbehind
    intro step hstep
    simp only [List.mem_cons, List.not_mem_nil, or_false] at hstep
    rcases hstep with rfl | rfl | rfl | rfl
    all_goals rfl
  have hfirst : isNameDescriptor (lastDescriptor steps 0).toList = false := by
    subst hsteps hbefore hbehind
    cbv
  obtain ⟨identity, h⟩ := exists_of_isSome hread
  obtain ⟨htold, hname⟩ := identity_of_ofSteps h
  have hshown := hname before behind "Café du Monde" hsteps (by decide) (by decide) hlast hfirst
  refine ⟨steps, identity, h, ?_, hfirst, htold.manufacturer.trans ?_, htold.productCode.trans ?_,
    htold.manufactured.trans ?_, htold.extensionCount.trans ?_, hshown.trans ?_⟩
  · rw [hsteps]
    exact List.mem_append_right _ (List.mem_cons_self ..)
  all_goals subst hsteps hbefore hbehind
  all_goals cbv

end Draft

end Edid

end VideoOutput
