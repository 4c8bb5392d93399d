import VideoOutput.Edid.Address
import VideoOutput.Proofs.Numerals

/-!
# Addresses as texts

A text is an address if dots split it into four components, each a hexadecimal numeral below sixteen
(`IsComponent`). A text with another number of parts is refused as a whole; with four parts it is
refused for the leftmost one that is no component, and `IsBad` tells what is said about that one.
`ofText_judges` has all of it, for every text, together with the way back: an address is read from
its written form if each component fits into half a byte, and only then.

A component may be longer than one digit: leading zeros count as digits of a numeral, and so does a
plus sign in front of it, because numerals are read by the general rule for numbers. It is the value
that has to be small. What is too large for a byte is told apart from what is a byte and too large
for a component, and both from what is no numeral.

Parts are judged from the left, and reading stops at the first one that is bad
(`readPart_bind_eq_error_iff`), so one lemma about a part and what follows it serves for all four.
-/

namespace VideoOutput

/-! ## Parts of a text -/

namespace Text

variable {sep : Char} {cs : List Char} {parts : List (List Char)}

/-- The parts of a text between the separators in it. -/
def IsSplit (sep : Char) (cs : List Char) (parts : List (List Char)) : Prop :=
  parts ≠ [] ∧ (∀ part ∈ parts, sep ∉ part) ∧ [sep].intercalate parts = cs

theorem not_mem_of_mem_splitOn {part : List Char} (h : part ∈ cs.splitOn sep) : sep ∉ part := by
  induction cs generalizing part with
  | nil =>
    rw [List.splitOn_nil, List.mem_singleton] at h
    rw [h]
    exact List.not_mem_nil
  | cons c cs ih =>
    rw [List.splitOn_cons_eq_if_modifyHead] at h
    obtain ⟨first, others, hsplit⟩ := List.exists_cons_of_ne_nil (List.splitOn_ne_nil sep cs)
    rw [hsplit] at h ih
    split at h
    next =>
      rcases List.mem_cons.mp h with rfl | h
      · exact List.not_mem_nil
      · exact ih h
    next hc =>
      rcases List.mem_cons.mp h with rfl | h
      · -- the character that is no separator goes to the first part
        rw [List.mem_cons, not_or]
        exact ⟨fun hsep => hc (hsep ▸ beq_self_eq_true sep), ih List.mem_cons_self⟩
      · exact ih (List.mem_cons_of_mem _ h)

/-- A text is cut into parts in one way only. -/
theorem splitOn_eq_iff : cs.splitOn sep = parts ↔ IsSplit sep cs parts := by
  constructor
  · rintro rfl
    exact ⟨List.splitOn_ne_nil sep cs, fun _ => not_mem_of_mem_splitOn,
      List.intercalate_splitOn sep⟩
  · rintro ⟨hne, hsep, rfl⟩
    exact List.splitOn_intercalate sep hsep hne

end Text

namespace Edid.PhysicalAddress

open Text (IsNumeral IsSplit Explains bind_eq_ok_iff bind_eq_error_iff)

/-! ## Components -/

/-- The part is a component: a hexadecimal numeral below sixteen. -/
def IsComponent (part : List Char) (v : UInt8) : Prop :=
  IsNumeral 16 part v.toNat ∧ v.toNat ≤ 15

/-- What is wrong with a part that is no component. -/
inductive IsBad (part : List Char) : AddressError → Prop where
  /-- It is no hexadecimal numeral, or one above what a byte holds. -/
  | unreadable {cause : Text.NumberError} (hnone : ∀ n, IsNumeral 16 part n → 255 < n)
      (hcause : Explains 16 255 part cause) : IsBad part (.badPart (String.ofList part) cause)
  /-- It is a byte that does not fit into half of one. -/
  | tooWide {n : Nat} (hn : IsNumeral 16 part n) (hlow : 16 ≤ n) (hhigh : n ≤ 255) :
      IsBad part (.tooWide (String.ofList part))

variable {part : List Char} {v : UInt8} {e : AddressError}

/-- A part is read exactly if it is a component. -/
theorem readPart_eq_ok_iff : readPart part = .ok v ↔ IsComponent part v := by
  have hread : ∀ n, Text.readNumber 16 255 part = .ok n ↔ IsNumeral 16 part n ∧ n ≤ 255 :=
    fun _ => Text.readNumber_eq_ok_iff (Nat.le_refl 16)
  unfold readPart IsComponent
  constructor
  · intro h
    split at h
    next => exact absurd h (by simp)
    next value hvalue =>
      split at h
      next hsmall =>
        obtain rfl := Except.ok.inj h
        have htoNat : (UInt8.ofNat value).toNat = value := by
          rw [UInt8.toNat_ofNat', Nat.mod_eq_of_lt (by omega)]
        rw [htoNat]
        exact ⟨((hread value).mp hvalue).1, hsmall⟩
      next => exact absurd h (by simp)
  · rintro ⟨hpart, hsmall⟩
    rw [(hread v.toNat).mpr ⟨hpart, by omega⟩]
    dsimp only
    rw [if_pos hsmall, UInt8.ofNat_toNat]

/-- It is refused exactly if something is bad about it, and told what. -/
theorem readPart_eq_error_iff : readPart part = .error e ↔ IsBad part e := by
  have hread : ∀ n, Text.readNumber 16 255 part = .ok n ↔ IsNumeral 16 part n ∧ n ≤ 255 :=
    fun _ => Text.readNumber_eq_ok_iff (Nat.le_refl 16)
  have hcause : ∀ cause, Text.readNumber 16 255 part = .error cause ↔ Explains 16 255 part cause :=
    fun _ => Text.readNumber_eq_error_iff (Nat.le_refl 16)
  unfold readPart
  constructor
  · intro h
    split at h
    next cause hnumber =>
      obtain rfl := Except.error.inj h
      refine .unreadable ?_ ((hcause cause).mp hnumber)
      intro n hn
      by_contra hsmall
      have hok := (hread n).mpr ⟨hn, Nat.le_of_not_lt hsmall⟩
      exact absurd (hnumber.symm.trans hok) (by simp)
    next value hvalue =>
      split at h
      next => exact absurd h (by simp)
      next hwide =>
        obtain rfl := Except.error.inj h
        obtain ⟨hpart, hhigh⟩ := (hread value).mp hvalue
        exact .tooWide hpart (by omega) hhigh
  · intro h
    cases h with
    | @unreadable cause hnone hexplains => rw [(hcause cause).mpr hexplains]
    | @tooWide n hn hlow hhigh =>
      rw [(hread n).mpr ⟨hn, hhigh⟩]
      dsimp only
      rw [if_neg (by omega)]

/-- The parts are refused for the leftmost one that is no component. -/
def IsRefusedFor (parts : List (List Char)) (e : AddressError) : Prop :=
  ∃ good part rest, parts = good ++ part :: rest ∧ (∀ p ∈ good, ∃ v, IsComponent p v) ∧
    IsBad part e

theorem not_isRefusedFor_nil (e : AddressError) : ¬ IsRefusedFor [] e := by
  rintro ⟨good, part, rest, hsplit, -⟩
  exact absurd hsplit (by simp)

/-- The leftmost bad part is the first one, or the first one is good and it is further right. -/
theorem isRefusedFor_cons {rest : List (List Char)} :
    IsRefusedFor (part :: rest) e ↔
      IsBad part e ∨ (∃ v, IsComponent part v) ∧ IsRefusedFor rest e := by
  constructor
  · rintro ⟨good, bad, others, hsplit, hgood, hbad⟩
    cases good with
    | nil =>
      obtain ⟨rfl, -⟩ := List.cons.inj hsplit
      exact .inl hbad
    | cons first good =>
      obtain ⟨rfl, rfl⟩ := List.cons.inj hsplit
      obtain ⟨hpart, hgood⟩ := List.forall_mem_cons.mp hgood
      exact .inr ⟨hpart, good, bad, others, rfl, hgood, hbad⟩
  · rintro (hbad | ⟨hpart, good, bad, others, rfl, hgood, hbad⟩)
    · exact ⟨[], part, rest, rfl, by simp, hbad⟩
    · exact ⟨part :: good, bad, others, rfl, List.forall_mem_cons.mpr ⟨hpart, hgood⟩, hbad⟩

/-! ## Reading part by part -/

/-- What is read next is refused for its leftmost bad part, and then so is all of it. -/
theorem readPart_bind_eq_error_iff {α : Type} {next : UInt8 → Except AddressError α}
    {rest : List (List Char)} (hnext : ∀ v, next v = .error e ↔ IsRefusedFor rest e) :
    readPart part >>= next = .error e ↔ IsRefusedFor (part :: rest) e := by
  rw [isRefusedFor_cons, bind_eq_error_iff, readPart_eq_error_iff]
  simp only [hnext, readPart_eq_ok_iff, exists_and_right]

variable {s : String} {pa pb pc pd : List Char} {p : PhysicalAddress}

/-- Four parts are read to the address whose components they are. -/
theorem ofText_eq_ok_iff_of_split (h : IsSplit '.' s.toList [pa, pb, pc, pd]) :
    ofText s = .ok p ↔
      IsComponent pa p.a ∧ IsComponent pb p.b ∧ IsComponent pc p.c ∧ IsComponent pd p.d := by
  unfold ofText
  rw [Text.splitOn_eq_iff.mpr h]
  simp only [bind_eq_ok_iff, readPart_eq_ok_iff]
  constructor
  · rintro ⟨a, ha, b, hb, c, hc, d, hd, hp⟩
    obtain rfl := Except.ok.inj hp
    exact ⟨ha, hb, hc, hd⟩
  · rintro ⟨ha, hb, hc, hd⟩
    exact ⟨p.a, ha, p.b, hb, p.c, hc, p.d, hd, rfl⟩

/-- If they are refused, then for the leftmost one that is no component. -/
theorem ofText_eq_error_iff_of_split (h : IsSplit '.' s.toList [pa, pb, pc, pd]) :
    ofText s = .error e ↔ IsRefusedFor [pa, pb, pc, pd] e := by
  unfold ofText
  rw [Text.splitOn_eq_iff.mpr h]
  refine readPart_bind_eq_error_iff fun a => readPart_bind_eq_error_iff fun b =>
    readPart_bind_eq_error_iff fun c => readPart_bind_eq_error_iff fun d => ?_
  exact iff_of_false (by simp [pure, Except.pure]) (not_isRefusedFor_nil e)

/-- Any other number of parts is refused whatever they are. -/
theorem ofText_of_not_four {parts : List (List Char)} (h : IsSplit '.' s.toList parts)
    (hlength : parts.length ≠ 4) : ofText s = .error (.notFourParts s) := by
  unfold ofText
  rw [Text.splitOn_eq_iff.mpr h]
  split
  next => exact absurd rfl hlength
  next => rfl

theorem exists_four {parts : List (List Char)} (h : parts.length = 4) :
    ∃ pa pb pc pd, parts = [pa, pb, pc, pd] := by
  match parts, h with
  | [pa, pb, pc, pd], _ => exact ⟨pa, pb, pc, pd, rfl⟩

/-! ## The written form -/

theorem hexDigits_of_lt {n : Nat} (h : n < 16) : (Text.hexDigits n).toList = [Nat.digitChar n] := by
  unfold Text.hexDigits
  rw [String.toList_ofList, Nat.toDigits_of_lt_base h]

theorem isComponent_digitChar (h : v.toNat ≤ 15) : IsComponent [Nat.digitChar v.toNat] v := by
  have hdigit : Text.IsDigit 16 (Nat.digitChar v.toNat) v.toNat := ⟨by omega, .inl rfl⟩
  exact ⟨⟨_, [v.toNat], .inl rfl, by simp, .cons hdigit .nil, by simp⟩, h⟩

/-- One digit for every component, with dots between them. -/
theorem isSplit_text (ha : p.a.toNat ≤ 15) (hb : p.b.toNat ≤ 15) (hc : p.c.toNat ≤ 15)
    (hd : p.d.toNat ≤ 15) :
    IsSplit '.' p.text.toList [[Nat.digitChar p.a.toNat], [Nat.digitChar p.b.toNat],
      [Nat.digitChar p.c.toNat], [Nat.digitChar p.d.toNat]] := by
  have hdot : ∀ n ≤ 15, '.' ∉ [Nat.digitChar n] := by decide
  refine ⟨by simp, ?_, ?_⟩
  · simp only [List.forall_mem_cons]
    exact ⟨hdot _ ha, hdot _ hb, hdot _ hc, hdot _ hd, by simp⟩
  · unfold text
    rw [String.toList_intercalate]
    simp only [List.map_cons, List.map_nil, hexDigits_of_lt (Nat.lt_succ_of_le ha),
      hexDigits_of_lt (Nat.lt_succ_of_le hb), hexDigits_of_lt (Nat.lt_succ_of_le hc),
      hexDigits_of_lt (Nat.lt_succ_of_le hd)]
    rfl

/-! ## All of it -/

/-- How a text is read as an address. -/
structure IsJudgedText (s : String) : Prop where
  /-- It is read if dots split it into four components. -/
  read : ∀ p, ofText s = .ok p ↔ ∃ pa pb pc pd, IsSplit '.' s.toList [pa, pb, pc, pd] ∧
    IsComponent pa p.a ∧ IsComponent pb p.b ∧ IsComponent pc p.c ∧ IsComponent pd p.d
  /-- With another number of parts it is refused as a whole, -/
  miscounted : ofText s = .error (.notFourParts s) ↔
    ∃ parts, IsSplit '.' s.toList parts ∧ parts.length ≠ 4
  /-- and with four parts for the leftmost one that is no component. -/
  leftmost : ∀ parts, IsSplit '.' s.toList parts → parts.length = 4 →
    ∀ e, ofText s = .error e ↔ IsRefusedFor parts e

/-- Every text is judged: it is an address, or it has the wrong number of parts, or a leftmost bad
one. -/
theorem isJudgedText (s : String) : IsJudgedText s := by
  have honly : ∀ {parts others}, IsSplit '.' s.toList parts → IsSplit '.' s.toList others →
      parts = others := by
    intro parts others hparts hothers
    exact (Text.splitOn_eq_iff.mpr hparts).symm.trans (Text.splitOn_eq_iff.mpr hothers)
  have hsplit : IsSplit '.' s.toList (s.toList.splitOn '.') := Text.splitOn_eq_iff.mp rfl
  have hleftmost : ∀ parts, IsSplit '.' s.toList parts → parts.length = 4 →
      ∀ e, ofText s = .error e ↔ IsRefusedFor parts e := by
    intro parts hparts hlength e
    obtain ⟨pa, pb, pc, pd, rfl⟩ := exists_four hlength
    exact ofText_eq_error_iff_of_split hparts
  refine ⟨fun p => ⟨fun hok => ?_, ?_⟩, ⟨fun herror => ?_, ?_⟩, hleftmost⟩
  · have hlength : (s.toList.splitOn '.').length = 4 := by
      by_contra hother
      exact absurd (hok.symm.trans (ofText_of_not_four hsplit hother)) (by simp)
    obtain ⟨pa, pb, pc, pd, hparts⟩ := exists_four hlength
    rw [hparts] at hsplit
    exact ⟨pa, pb, pc, pd, hsplit, (ofText_eq_ok_iff_of_split hsplit).mp hok⟩
  · rintro ⟨pa, pb, pc, pd, hparts, hcomponents⟩
    exact (ofText_eq_ok_iff_of_split hparts).mpr hcomponents
  · refine ⟨_, hsplit, fun hlength => ?_⟩
    -- what is said about a part is never that there are too few of them
    obtain ⟨-, part, -, -, -, hbad⟩ := (hleftmost _ hsplit hlength _).mp herror
    cases hbad
  · rintro ⟨parts, hparts, hlength⟩
    exact ofText_of_not_four hparts hlength

/-- **How texts are read as addresses.** Every text is read if dots split it into four components,
which are those of the address, and is otherwise refused for the number of its parts or for the
leftmost bad one. The written form of an address is read back if each component fits into half a
byte, and only then. -/
theorem ofText_judges :
    (∀ s, IsJudgedText s) ∧
      ∀ p : PhysicalAddress, ofText p.text = .ok p ↔
        p.a.toNat ≤ 15 ∧ p.b.toNat ≤ 15 ∧ p.c.toNat ≤ 15 ∧ p.d.toNat ≤ 15 := by
  refine ⟨isJudgedText, fun p => ⟨fun hok => ?_, ?_⟩⟩
  · obtain ⟨_, _, _, _, -, ha, hb, hc, hd⟩ := ((isJudgedText _).read p).mp hok
    exact ⟨ha.2, hb.2, hc.2, hd.2⟩
  · rintro ⟨ha, hb, hc, hd⟩
    exact (ofText_eq_ok_iff_of_split (isSplit_text ha hb hc hd)).mpr
      ⟨isComponent_digitChar ha, isComponent_digitChar hb, isComponent_digitChar hc,
        isComponent_digitChar hd⟩

end Edid.PhysicalAddress

end VideoOutput
