import Mathlib.Data.List.Forall2
import VideoOutput.Json.Number

/-!
# Written strings and numbers

How the parts of a JSON text can be written, and that every way is read. A string has many
spellings: most characters may stand for themselves, some have a short escape, and all can be
written by their code units (`SpellsChar`). Reading takes one spelled character off the text at a
time (`readString_append_of_spellsChar`), so it gives back the string whatever the spelling
(`readString_of_spells`). A whole number has one form, its decimal digits, and it is read back as
long as nothing behind it continues it (`readNumber_decimal`). Spaces in front of a part do not
count.

Every lemma about reading has the same form: what is written, followed by anything at all, is read
as what was meant, and the rest is left as it was. In this form the lemmas can be chained along a
text without a word about positions. Strings end at their quotation mark, so what follows them may
be anything; a number ends where no digit, point or exponent follows, which is the one condition on
the rest (`EndsNumber`).

Spellings are a relation between a character and the texts that stand for it. It is stated from the
grammar, digit by digit, and not from the functions that read, so that reading is compared with
something.
-/

namespace VideoOutput.Json

/-! ## Spaces -/

/-- Nothing but spaces and ends of lines. -/
def IsBlank (text : List Char) : Prop :=
  ∀ c ∈ text, c ∈ [' ', '\n', '\t', '\r']

/-- Four characters count as space between the parts of a text. -/
theorem isSpace_iff {c : Char} : isSpace c = true ↔ c ∈ [' ', '\n', '\t', '\r'] := by
  unfold isSpace
  simp only [Bool.or_eq_true, beq_iff_eq, List.mem_cons, List.not_mem_nil, or_false, or_assoc]

theorem ne_of_isDigit {c d : Char} (hc : c.isDigit = true) (hd : d.isDigit = false) : c ≠ d := by
  intro heq
  rw [heq, hd] at hc
  exact Bool.false_ne_true hc

theorem isSpace_of_isDigit {c : Char} (h : c.isDigit = true) : isSpace c = false := by
  by_contra hspace
  rw [Bool.not_eq_false, isSpace_iff] at hspace
  simp only [List.mem_cons, List.not_mem_nil, or_false] at hspace
  rcases hspace with hspace | hspace | hspace | hspace
  all_goals exact ne_of_isDigit h rfl hspace

/-- Spaces in front of a part are passed over, whatever the part is. -/
theorem skipSpace_append {blank : List Char} (h : IsBlank blank) (cs : List Char) :
    skipSpace (blank ++ cs) = skipSpace cs := by
  unfold skipSpace
  rw [List.dropWhile_append_of_pos]
  intro c hc
  exact isSpace_iff.mpr (h c hc)

theorem skipSpace_blank {blank : List Char} (h : IsBlank blank) : skipSpace blank = [] := by
  have hskip := skipSpace_append h []
  rw [List.append_nil] at hskip
  exact hskip

theorem skipSpace_cons {c : Char} (h : isSpace c = false) (cs : List Char) :
    skipSpace (c :: cs) = c :: cs := by
  unfold skipSpace
  rw [List.dropWhile_cons_of_neg (by rw [h]; exact Bool.false_ne_true)]

/-- What is passed over ends at the first character that is no space. -/
theorem skipSpace_append_cons {blank : List Char} (h : IsBlank blank) {c : Char}
    (hc : isSpace c = false) (cs : List Char) : skipSpace (blank ++ c :: cs) = c :: cs :=
  (skipSpace_append h _).trans (skipSpace_cons hc cs)

/-! ## Spellings -/

/-- A hexadecimal digit, in either case, and its value. -/
def IsHexDigit (digit : Char) (value : Nat) : Prop :=
  value < 16 ∧ (digit = Nat.digitChar value ∨ digit = (Nat.digitChar value).toUpper)

/-- The four hexadecimal digits of a code unit. -/
def IsCodeUnit (digits : List Char) (n : Nat) : Prop :=
  ∃ a b c d va vb vc vd, digits = [a, b, c, d] ∧ IsHexDigit a va ∧ IsHexDigit b vb ∧
    IsHexDigit c vc ∧ IsHexDigit d vd ∧ n = ((va * 16 + vb) * 16 + vc) * 16 + vd

/-- The characters with a short escape, each behind the letter of the escape. -/
def shortEscapes : List (Char × Char) :=
  [('"', '"'), ('\\', '\\'), ('/', '/'), ('b', '\x08'), ('f', '\x0c'), ('n', '\n'), ('r', '\r'),
    ('t', '\t')]

/-- The ways to write a character in a string. -/
inductive SpellsChar : List Char → Char → Prop where
  /-- A quote, a backslash and control characters cannot stand for themselves, -/
  | plain {c : Char} (hcontrol : 0x20 ≤ c.toNat) (hquote : c ≠ '"') (hbackslash : c ≠ '\\') :
      SpellsChar [c] c
  /-- some of them have a short escape, -/
  | short {letter c : Char} (h : (letter, c) ∈ shortEscapes) : SpellsChar ['\\', letter] c
  /-- and every character can be written by its code unit -/
  | unit {digits : List Char} {c : Char} (h : IsCodeUnit digits c.toNat) :
      SpellsChar ('\\' :: 'u' :: digits) c
  /-- or, beyond those with a single one, by its two code units. -/
  | pair {high low : List Char} {c : Char} (hlarge : 0x10000 ≤ c.toNat)
      (hhigh : IsCodeUnit high (0xD800 + (c.toNat - 0x10000) / 0x400))
      (hlow : IsCodeUnit low (0xDC00 + (c.toNat - 0x10000) % 0x400)) :
      SpellsChar ('\\' :: 'u' :: (high ++ '\\' :: 'u' :: low)) c

/-- A text between quotes, each character written in one of its ways. -/
def IsString (s : String) (text : List Char) : Prop :=
  ∃ parts, List.Forall₂ SpellsChar parts s.toList ∧ text = '"' :: (parts.flatten ++ ['"'])

theorem hexValue?_of_isHexDigit {digit : Char} {value : Nat} (h : IsHexDigit digit value) :
    hexValue? digit = some value := by
  have hall : ∀ value < 16, hexValue? (Nat.digitChar value) = some value ∧
      hexValue? (Nat.digitChar value).toUpper = some value := by decide
  obtain ⟨hvalue, hdigit⟩ := h
  rcases hdigit with rfl | rfl
  · exact (hall value hvalue).1
  · exact (hall value hvalue).2

/-- The four digits of a code unit are read back as its number, and what is behind them is left. -/
theorem readUnit_append {digits : List Char} {n : Nat} (h : IsCodeUnit digits n) (cs : List Char) :
    readUnit (digits ++ cs) = .ok (n, cs) := by
  obtain ⟨a, b, c, d, va, vb, vc, vd, rfl, ha, hb, hc, hd, rfl⟩ := h
  show readUnit (a :: b :: c :: d :: cs) = _
  rw [readUnit, hexValue?_of_isHexDigit ha, hexValue?_of_isHexDigit hb, hexValue?_of_isHexDigit hc,
    hexValue?_of_isHexDigit hd]

/-- No character is half of a pair. -/
theorem not_isUnit_toNat (c : Char) : isHighUnit c.toNat = false ∧ isLowUnit c.toNat = false := by
  -- both ranges are between those in which there are characters
  have hvalid : c.toNat < 0xD800 ∨ 0xDFFF < c.toNat ∧ c.toNat < 0x110000 := c.valid
  unfold isHighUnit isLowUnit
  simp only [Bool.and_eq_false_iff, decide_eq_false_iff_not, Nat.not_le]
  omega

/-- A character of the first plane is written by one code unit. -/
theorem readCodePoint_unit {digits : List Char} {c : Char} (h : IsCodeUnit digits c.toNat)
    (cs : List Char) : readCodePoint (digits ++ cs) = .ok (c, cs) := by
  obtain ⟨hhigh, hlow⟩ := not_isUnit_toNat c
  unfold readCodePoint
  rw [readUnit_append h]
  dsimp only
  rw [if_neg (by simp [hlow]), if_neg (by simp [hhigh]), Char.ofNat_toNat]

/-- A character beyond the first plane is written by two code units, the high one first, and the
pair is put together again. -/
theorem readCodePoint_pair {high low : List Char} {c : Char} (hlarge : 0x10000 ≤ c.toNat)
    (hhigh : IsCodeUnit high (0xD800 + (c.toNat - 0x10000) / 0x400))
    (hlow : IsCodeUnit low (0xDC00 + (c.toNat - 0x10000) % 0x400)) (cs : List Char) :
    readCodePoint (high ++ '\\' :: 'u' :: (low ++ cs)) = .ok (c, cs) := by
  have hvalid : c.toNat < 0xD800 ∨ 0xDFFF < c.toNat ∧ c.toNat < 0x110000 := c.valid
  have hnotLow : isLowUnit (0xD800 + (c.toNat - 0x10000) / 0x400) = false := by
    unfold isLowUnit
    simp only [Bool.and_eq_false_iff, decide_eq_false_iff_not, Nat.not_le]
    omega
  have hisHigh : isHighUnit (0xD800 + (c.toNat - 0x10000) / 0x400) = true := by
    unfold isHighUnit
    simp only [Bool.and_eq_true, decide_eq_true_eq]
    omega
  have hisLow : isLowUnit (0xDC00 + (c.toNat - 0x10000) % 0x400) = true := by
    unfold isLowUnit
    simp only [Bool.and_eq_true, decide_eq_true_eq]
    omega
  have hcode : 0x10000 + (0xD800 + (c.toNat - 0x10000) / 0x400 - 0xD800) * 0x400 +
      (0xDC00 + (c.toNat - 0x10000) % 0x400 - 0xDC00) = c.toNat := by omega
  unfold readCodePoint
  rw [readUnit_append hhigh]
  dsimp only
  rw [if_neg (by simp [hnotLow]), if_pos hisHigh]
  rw [readLowUnit, readUnit_append hlow]
  dsimp only
  rw [if_pos hisLow, hcode, Char.ofNat_toNat]

/-! ## Reading a string -/

/-- The string that was read, with one more character in front. -/
def withFront (c : Char) (read : Read (List Char)) : Read (List Char) :=
  read.map fun (text, rest) => (c :: text, rest)

theorem readString_quote (cs : List Char) : readString ('"' :: cs) = .ok ([], cs) := by
  rw [readString, if_pos rfl]

/-- A character that needs no escape is the next character of the string. -/
theorem readString_plain {c : Char} (hcontrol : 0x20 ≤ c.toNat) (hquote : c ≠ '"')
    (hbackslash : c ≠ '\\') (cs : List Char) :
    readString (c :: cs) = withFront c (readString cs) := by
  rw [readString, if_neg hquote, if_neg hbackslash, if_neg (Nat.not_lt.mpr hcontrol)]
  cases readString cs with
  | error p => rfl
  | ok read => rfl

/-- An escape is one character of the string, however many it takes in the text. -/
theorem readString_escape {c : Char} {cs rest : List Char} (h : readEscape cs = .ok (c, rest)) :
    readString ('\\' :: cs) = withFront c (readString rest) := by
  rw [readString, if_neg (by decide), if_pos rfl]
  split
  next p hp => exact absurd (h.symm.trans hp) (by simp)
  next e rest' he =>
    obtain ⟨rfl, rfl⟩ := Prod.mk.inj (Except.ok.inj (h.symm.trans he))
    cases readString rest with
    | error p => rfl
    | ok read => rfl

/-- **One spelled character** is taken off the text. -/
theorem readString_append_of_spellsChar {part : List Char} {c : Char} (h : SpellsChar part c)
    (cs : List Char) : readString (part ++ cs) = withFront c (readString cs) := by
  cases h with
  | plain hcontrol hquote hbackslash => exact readString_plain hcontrol hquote hbackslash cs
  | short hmem =>
    refine readString_escape ?_
    simp only [shortEscapes, List.mem_cons, Prod.mk.injEq, List.not_mem_nil, or_false] at hmem
    rcases hmem with ⟨rfl, rfl⟩ | ⟨rfl, rfl⟩ | ⟨rfl, rfl⟩ | ⟨rfl, rfl⟩ | ⟨rfl, rfl⟩ | ⟨rfl, rfl⟩ |
      ⟨rfl, rfl⟩ | ⟨rfl, rfl⟩
    all_goals rfl
  | unit hunit => exact readString_escape (readCodePoint_unit hunit cs)
  | pair hlarge hhigh hlow =>
    rw [List.cons_append, List.cons_append, List.append_assoc, List.cons_append, List.cons_append]
    exact readString_escape (readCodePoint_pair hlarge hhigh hlow cs)

/-- A string is read back whatever the spelling of each of its characters. -/
theorem readString_of_spells {parts : List (List Char)} {text : List Char}
    (h : List.Forall₂ SpellsChar parts text) (rest : List Char) :
    readString (parts.flatten ++ '"' :: rest) = .ok (text, rest) := by
  induction h with
  | nil => exact readString_quote rest
  | cons hpart _ ih =>
    rw [List.flatten_cons, List.append_assoc, readString_append_of_spellsChar hpart, ih]
    rfl

/-- A written string starts with its quote, and behind this it is read back. -/
theorem exists_of_isString {s : String} {text : List Char} (h : IsString s text)
    (rest : List Char) :
    ∃ body, text ++ rest = '"' :: body ∧ readString body = .ok (s.toList, rest) := by
  obtain ⟨parts, hparts, rfl⟩ := h
  refine ⟨parts.flatten ++ '"' :: rest, ?_, readString_of_spells hparts rest⟩
  rw [List.cons_append, List.append_assoc, List.singleton_append]

/-- The character can stand for itself. -/
def isPlain (c : Char) : Bool :=
  decide (0x20 ≤ c.toNat) && c != '"' && c != '\\'

/-- A string of characters that stand for themselves. -/
theorem isString_of_plain {s : String} (h : s.toList.all isPlain = true) :
    IsString s ('"' :: (s.toList ++ ['"'])) := by
  refine ⟨s.toList.map fun c => [c], ?_, ?_⟩
  · rw [List.forall₂_map_left_iff, List.forall₂_same]
    intro c hc
    have hplain := List.all_eq_true.mp h c hc
    unfold isPlain at hplain
    simp only [Bool.and_eq_true, decide_eq_true_eq, bne_iff_ne] at hplain
    exact .plain hplain.1.1 hplain.1.2 hplain.2
  · have hflat : (s.toList.map fun c => [c]).flatten = s.toList := by
      rw [← List.flatMap_def, List.flatMap_singleton']
    rw [hflat]

/-! ## Numbers -/

/-- The decimal digits of a number. -/
def decimal (n : Nat) : List Char :=
  (toString n).toList

/-- Nothing here continues a number that stands in front of it. -/
def EndsNumber (cs : List Char) : Prop :=
  ∀ c ∈ cs.head?, c.isDigit = false ∧ c ≠ '.' ∧ c ≠ 'e' ∧ c ≠ 'E'

theorem endsNumber_cons {c : Char} (h : c.isDigit = false ∧ c ≠ '.' ∧ c ≠ 'e' ∧ c ≠ 'E')
    (cs : List Char) : EndsNumber (c :: cs) := by
  intro c' hc'
  obtain rfl := Option.some.inj hc'
  exact h

/-- Spaces end a number too. -/
theorem endsNumber_append {blank : List Char} (h : IsBlank blank) {cs : List Char}
    (hcs : EndsNumber cs) : EndsNumber (blank ++ cs) := by
  cases blank with
  | nil => exact hcs
  | cons c blank =>
    have hspace := h c (by simp)
    simp only [List.mem_cons, List.not_mem_nil, or_false] at hspace
    apply endsNumber_cons
    rcases hspace with rfl | rfl | rfl | rfl
    all_goals decide

theorem decimal_eq (n : Nat) : decimal n = Nat.toDigits 10 n :=
  Nat.toList_repr

/-- The decimal form of a number is made of digits. -/
theorem isDigit_of_mem_decimal {n : Nat} {c : Char} (h : c ∈ decimal n) : c.isDigit = true := by
  rw [decimal_eq] at h
  exact Nat.isDigit_of_mem_toDigits (by decide) (by decide) h

theorem decimal_ne_nil (n : Nat) : decimal n ≠ [] := by
  rw [decimal_eq]
  exact Nat.toDigits_ne_nil

/-- A written number starts with a digit. -/
theorem exists_decimal_append_eq_cons (n : Nat) (rest : List Char) :
    ∃ c cs, decimal n ++ rest = c :: cs ∧ c.isDigit = true := by
  obtain ⟨c, cs, hcs⟩ := List.exists_cons_of_ne_nil (decimal_ne_nil n)
  refine ⟨c, cs ++ rest, by rw [hcs, List.cons_append], ?_⟩
  exact isDigit_of_mem_decimal (hcs ▸ List.mem_cons_self)

/-- The value of each digit. -/
def digitsOf (n : Nat) : List Nat :=
  (decimal n).map fun c => c.toNat - 0x30

theorem digitsOf_ne_nil (n : Nat) : digitsOf n ≠ [] := by
  intro hnil
  exact decimal_ne_nil n (List.map_eq_nil_iff.mp hnil)

/-- The digits of a number give its value back, the highest first. -/
theorem foldl_digitsOf (n : Nat) : (digitsOf n).foldl (fun value d => value * 10 + d) 0 = n := by
  have hdigits := Nat.ofDigitChars_ten_toDigits (n := n)
  rw [Nat.ofDigitChars_eq_foldl] at hdigits
  simp only [Nat.mul_comm 10] at hdigits
  rw [digitsOf, decimal_eq, List.foldl_map]
  exact hdigits

/-- Apart from zero itself no number starts with a zero. -/
theorem exists_digitsOf_eq_cons {n : Nat} (hn : 0 < n) :
    ∃ d ds, digitsOf n = d :: ds ∧ d ≠ 0 := by
  induction n using Nat.strongRecOn with
  | ind n ih =>
    unfold digitsOf
    rw [decimal_eq, Nat.toDigits_eq_if (by decide)]
    by_cases hsmall : n < 10
    · rw [if_pos hsmall, List.map_singleton, Nat.toNat_digitChar_sub_48_of_lt_ten hsmall]
      exact ⟨n, [], rfl, Nat.ne_of_gt hn⟩
    · obtain ⟨d, ds, hdigits, hd⟩ := ih (n / 10) (by omega) (by omega)
      unfold digitsOf at hdigits
      rw [decimal_eq] at hdigits
      rw [if_neg hsmall, List.map_append, hdigits, List.cons_append]
      exact ⟨d, _, rfl, hd⟩

/-- The decimal form has no leading zero, which the grammar would not allow. -/
theorem digitsOf_ne (n d : Nat) (ds : List Nat) : digitsOf n ≠ 0 :: d :: ds := by
  intro heq
  by_cases hn : 0 < n
  · obtain ⟨d', ds', heq', hd'⟩ := exists_digitsOf_eq_cons hn
    exact hd' (List.cons.inj (heq'.symm.trans heq)).1
  · obtain rfl : n = 0 := by omega
    exact absurd heq (by simp [digitsOf, decimal_eq])

/-- The digits of a number end where nothing continues them. -/
theorem readDigits_decimal (n : Nat) {rest : List Char} (h : EndsNumber rest) :
    readDigits (decimal n ++ rest) = (digitsOf n, rest) := by
  have hdigits : ∀ c ∈ decimal n, c.isDigit = true := fun c hc => isDigit_of_mem_decimal hc
  have htake : rest.takeWhile Char.isDigit = [] ∧ rest.dropWhile Char.isDigit = rest := by
    cases rest with
    | nil => exact ⟨rfl, rfl⟩
    | cons c rest =>
      have hc := (h c rfl).1
      rw [List.takeWhile_cons_of_neg (by simp [hc]), List.dropWhile_cons_of_neg (by simp [hc])]
      exact ⟨rfl, rfl⟩
  unfold readDigits
  rw [List.takeWhile_append_of_pos hdigits, List.dropWhile_append_of_pos hdigits, htake.1, htake.2,
    List.append_nil]
  rfl

/-- The digits of a number are read up to what follows them. -/
theorem readWholePart_decimal (n : Nat) {rest : List Char} (h : EndsNumber rest) :
    readWholePart (decimal n ++ rest) = .ok (digitsOf n, rest) := by
  have hsome : readSomeDigits (decimal n ++ rest) = .ok (digitsOf n, rest) := by
    have hread := readDigits_decimal n h
    obtain ⟨c, cs, hcs, -⟩ := exists_decimal_append_eq_cons n rest
    obtain ⟨d, ds, hds⟩ := List.exists_cons_of_ne_nil (digitsOf_ne_nil n)
    rw [hcs, hds] at hread ⊢
    unfold readSomeDigits
    rw [hread]
  unfold readWholePart
  rw [hsome]
  -- a zero is refused only in front of further digits
  split
  next heq => exact absurd (Prod.mk.inj (Except.ok.inj heq)).1 (digitsOf_ne n _ _)
  next => rfl

/-- Digits are read onto a value as long as the result is below the bound. -/
theorem absorb_of_lt {value : Nat} {ds : List Nat}
    (h : ds.foldl (fun value d => value * 10 + d) value < wholeBound) :
    absorb value ds = (ds.foldl (fun value d => value * 10 + d) value, 0) := by
  -- what was read so far is never more than the whole number, so it is below the bound as well
  have hgrows : ∀ (ds : List Nat) (value : Nat),
      value ≤ ds.foldl (fun value d => value * 10 + d) value := by
    intro ds
    induction ds with
    | nil =>
      intro value
      exact Nat.le_refl value
    | cons d ds ih =>
      intro value
      have hrest := ih (value * 10 + d)
      rw [List.foldl_cons]
      omega
  induction ds generalizing value with
  | nil => rfl
  | cons d ds ih =>
    rw [List.foldl_cons] at h ⊢
    rw [absorb, if_pos (Nat.lt_of_le_of_lt (hgrows ds _) h), ih h]

/-- A number below the bound of whole numbers is taken up without loss. -/
theorem absorb_digitsOf {n : Nat} (hn : n < wholeBound) : absorb 0 (digitsOf n) = (n, 0) := by
  have hvalue := foldl_digitsOf n
  rw [absorb_of_lt (by rw [hvalue]; exact hn), hvalue]

/-- A decimal form is read as a number without a fraction and without an exponent. -/
theorem readDecimal_decimal {n : Nat} (hn : n < wholeBound) {rest : List Char}
    (h : EndsNumber rest) :
    readDecimal (decimal n ++ rest) = .ok (⟨digitsOf n, none, none⟩, rest) := by
  have hfraction : readFraction rest = .ok (none, rest) := by
    unfold readFraction
    split
    next => exact absurd rfl (h '.' rfl).2.1
    next => rfl
  have hexponent : readExponent rest = .ok (none, rest) := by
    unfold readExponent
    split
    next => exact absurd rfl (h 'e' rfl).2.2.1
    next => exact absurd rfl (h 'E' rfl).2.2.2
    next => rfl
  have hrange : Decimal.isOutOfRange ⟨digitsOf n, none, none⟩ = false := by
    simp [Decimal.isOutOfRange, absorb_digitsOf hn, absorb]
  unfold readDecimal
  rw [readWholePart_decimal n h]
  dsimp only
  rw [hfraction]
  dsimp only
  rw [hexponent]
  dsimp only
  rw [if_neg (by simp [hrange])]

/-- **A written number** below the bound is read back. -/
theorem readNumber_decimal {n : Nat} (hn : n < wholeBound) {rest : List Char}
    (h : EndsNumber rest) :
    readNumber (decimal n ++ rest) = .ok (some n, rest) := by
  have hread := readDecimal_decimal hn h
  have hwhole : Decimal.whole? ⟨digitsOf n, none, none⟩ = some n := by
    unfold Decimal.whole?
    rw [absorb_digitsOf hn]
    rfl
  obtain ⟨c, cs, hcs, hdigit⟩ := exists_decimal_append_eq_cons n rest
  rw [hcs] at hread ⊢
  unfold readNumber
  split
  next heq =>
    obtain ⟨rfl, -⟩ := List.cons.inj heq
    exact absurd hdigit (by decide)
  next =>
    rw [hread]
    dsimp only
    rw [hwhole]

end VideoOutput.Json
