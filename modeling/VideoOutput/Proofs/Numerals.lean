import Mathlib.Data.Nat.Digits.Defs
import Mathlib.Tactic.IntervalCases
import VideoOutput.Text.Number

/-!
# Written numbers

A numeral is an optional `+` and at least one digit, of which letters count in either case
(`IsNumeral`). The reader goes from left to right, keeps below its limit and stops at the first
problem. What it accepts are the numerals up to the limit, however many zeros they start with
(`readNumber_eq_ok_iff`); what it complains about is told by `Explains`, and
`readNumber_eq_error_iff` is the agreement of the two. A number is too large as soon as a beginning
of it is, so the digits behind that beginning are never looked at.

All lemmas are for any base up to sixteen and any limit: addresses are read in base sixteen up to a
byte, limits of queues in base ten up to 64 bits. The bound on the base makes sure that the sign is
no digit. The induction is over the text with the value read so far (`Continues`, `Overruns`); a
value that has gone over the limit never comes back below it, because another digit multiplies it,
and that is why the complaint can be made at once.
-/

namespace VideoOutput.Text

variable {base limit value n d : Nat} {c : Char} {cs digits : List Char}

/-! ## Digits -/

/-- The character is the digit with this value. -/
def IsDigit (base : Nat) (c : Char) (d : Nat) : Prop :=
  d < base ∧ (c = Nat.digitChar d ∨ c = (Nat.digitChar d).toUpper)

/-- A base that leaves room for fewer digits takes the smaller ones. -/
theorem digitValue?_eq_filter (hbase : base ≤ 16) (c : Char) :
    digitValue? base c = (digitValue? 16 c).filter (· < base) := by
  unfold digitValue?
  dsimp only
  rw [Option.filter_filter]
  congr 1
  funext d
  by_cases hd : d < base
  · have hd' : d < 16 := Nat.lt_of_lt_of_le hd hbase
    simp [hd, hd']
  · simp [hd]

/-- In base sixteen the digits are those of ten and six letters in either case. -/
theorem digitValue?_sixteen_eq_some_iff : digitValue? 16 c = some d ↔ IsDigit 16 c d := by
  constructor
  · intro h
    obtain ⟨hvalue, hlt⟩ := Option.filter_eq_some_iff.mp h
    refine ⟨of_decide_eq_true hlt, ?_⟩
    generalize hn : c.toNat = n at hvalue
    obtain rfl : c = Char.ofNat n := by rw [← hn, Char.ofNat_toNat]
    -- the character is in one of the three ranges, and there are few in each
    split at hvalue
    next hrange =>
      obtain ⟨hlow, hhigh⟩ := hrange
      obtain rfl := Option.some.inj hvalue
      interval_cases n <;> decide
    next =>
      split at hvalue
      next hrange =>
        obtain ⟨hlow, hhigh⟩ := hrange
        obtain rfl := Option.some.inj hvalue
        interval_cases n <;> decide
      next =>
        split at hvalue
        next hrange =>
          obtain ⟨hlow, hhigh⟩ := hrange
          obtain rfl := Option.some.inj hvalue
          interval_cases n <;> decide
        next => exact absurd hvalue (by simp)
  · rintro ⟨hd, hc⟩
    interval_cases d <;> rcases hc with rfl | rfl <;> rfl

/-- The reader knows the digits. -/
theorem digitValue?_eq_some_iff (hbase : base ≤ 16) :
    digitValue? base c = some d ↔ IsDigit base c d := by
  rw [digitValue?_eq_filter hbase, Option.filter_eq_some_iff, digitValue?_sixteen_eq_some_iff]
  unfold IsDigit
  rw [decide_eq_true_iff]
  constructor
  · rintro ⟨⟨-, hc⟩, hd⟩
    exact ⟨hd, hc⟩
  · rintro ⟨hd, hc⟩
    exact ⟨⟨Nat.lt_of_lt_of_le hd hbase, hc⟩, hd⟩

theorem digitValue?_eq_none_iff (hbase : base ≤ 16) :
    digitValue? base c = none ↔ ∀ d, ¬ IsDigit base c d := by
  rw [Option.eq_none_iff_forall_ne_some]
  exact forall_congr' fun d => not_congr (digitValue?_eq_some_iff hbase)

theorem not_isDigit_plus (hbase : base ≤ 16) (d : Nat) : ¬ IsDigit base '+' d := by
  refine (digitValue?_eq_none_iff hbase).mp ?_ d
  rw [digitValue?_eq_filter hbase]
  rfl

/-! ## Digits in a row -/

/-- The digits behind a value make it this number. -/
def Continues (base value : Nat) (cs : List Char) (n : Nat) : Prop :=
  ∃ ds, List.Forall₂ (IsDigit base) cs ds ∧
    n = value * base ^ ds.length + Nat.ofDigits base ds.reverse

theorem continues_nil : Continues base value [] n ↔ n = value := by
  constructor
  · rintro ⟨ds, hds, rfl⟩
    cases hds
    simp
  · rintro rfl
    exact ⟨[], .nil, by simp⟩

/-- The first digit moves the value up by one place. -/
theorem continues_cons :
    Continues base value (c :: cs) n ↔
      ∃ d, IsDigit base c d ∧ Continues base (value * base + d) cs n := by
  have hplace : ∀ (d : Nat) (ds : List Nat),
      value * base ^ (d :: ds).length + Nat.ofDigits base (d :: ds).reverse =
        (value * base + d) * base ^ ds.length + Nat.ofDigits base ds.reverse := by
    intro d ds
    rw [List.reverse_cons, Nat.ofDigits_append, Nat.ofDigits_singleton, List.length_reverse,
      List.length_cons, Nat.pow_succ]
    ring
  constructor
  · rintro ⟨ds, hds, rfl⟩
    cases hds with
    | @cons _ d _ ds hd hds => exact ⟨d, hd, ds, hds, hplace d ds⟩
  · rintro ⟨d, hd, ds, hds, rfl⟩
    exact ⟨d :: ds, .cons hd hds, (hplace d ds).symm⟩

theorem continues_cons_of_digit (hbase : base ≤ 16) (hc : digitValue? base c = some d) :
    Continues base value (c :: cs) n ↔ Continues base (value * base + d) cs n := by
  rw [continues_cons]
  constructor
  · rintro ⟨d', hd', h⟩
    -- a character is one digit only
    obtain rfl := Option.some.inj (((digitValue?_eq_some_iff hbase).mpr hd').symm.trans hc)
    exact h
  · intro h
    exact ⟨d, (digitValue?_eq_some_iff hbase).mp hc, h⟩

theorem not_continues_cons (hbase : base ≤ 16) (hc : digitValue? base c = none) :
    ¬ Continues base value (c :: cs) n := by
  rw [continues_cons]
  rintro ⟨d, hd, -⟩
  exact (digitValue?_eq_none_iff hbase).mp hc d hd

/-- Digits never make a number smaller. -/
theorem Continues.le (h : Continues base value cs n) : value ≤ n := by
  induction cs generalizing value with
  | nil => exact (continues_nil.mp h).ge
  | cons c cs ih =>
    obtain ⟨d, hd, h⟩ := continues_cons.mp h
    have hbase : 0 < base := Nat.zero_lt_of_lt hd.1
    calc value ≤ value * base := Nat.le_mul_of_pos_right value hbase
      _ ≤ value * base + d := Nat.le_add_right _ d
      _ ≤ n := ih h

/-- **Digits in a row are read** if the number that they make is not above the limit. -/
theorem readDigits_eq_ok_iff (hbase : base ≤ 16) (hvalue : value ≤ limit) :
    readDigits base limit value cs = .ok n ↔ Continues base value cs n ∧ n ≤ limit := by
  induction cs generalizing value with
  | nil =>
    rw [readDigits, Except.ok.injEq, continues_nil]
    constructor
    · rintro rfl
      exact ⟨rfl, hvalue⟩
    · rintro ⟨rfl, -⟩
      rfl
  | cons c cs ih =>
    rw [readDigits]
    cases hc : digitValue? base c with
    | none => exact iff_of_false (by simp) fun h => not_continues_cons hbase hc h.1
    | some d =>
      rw [continues_cons_of_digit hbase hc]
      dsimp only
      by_cases hroom : value * base + d ≤ limit
      · rw [if_pos hroom, ih hroom]
      · rw [if_neg hroom]
        refine iff_of_false (by simp) ?_
        rintro ⟨h, hn⟩
        exact hroom (Nat.le_trans h.le hn)

/-- A beginning of the digits makes a number above the limit. -/
def Overruns (base limit value : Nat) (cs : List Char) : Prop :=
  ∃ front n, front <+: cs ∧ Continues base value front n ∧ limit < n

/-- A value that is within the limit does not overrun it at the end. -/
theorem not_overruns_nil (hvalue : value ≤ limit) : ¬ Overruns base limit value [] := by
  rintro ⟨front, n, hfront, h, hn⟩
  rw [List.prefix_nil.mp hfront, continues_nil] at h
  exact absurd (h ▸ hn) (Nat.not_lt.mpr hvalue)

/-- Unless it is too much already, the value of the first digits is a beginning of the number. -/
theorem overruns_cons (hvalue : value ≤ limit) :
    Overruns base limit value (c :: cs) ↔
      ∃ d, IsDigit base c d ∧
        (limit < value * base + d ∨ Overruns base limit (value * base + d) cs) := by
  constructor
  · rintro ⟨front, n, hfront, h, hn⟩
    rcases List.prefix_cons_iff.mp hfront with rfl | ⟨tail, rfl, htail⟩
    · exact absurd ⟨[], n, List.prefix_refl [], h, hn⟩ (not_overruns_nil hvalue)
    · obtain ⟨d, hd, h⟩ := continues_cons.mp h
      exact ⟨d, hd, .inr ⟨tail, n, htail, h, hn⟩⟩
  · rintro ⟨d, hd, hlarge | ⟨front, n, hfront, h, hn⟩⟩
    · refine ⟨[c], value * base + d, List.prefix_cons_iff.mpr (.inr ⟨[], rfl, List.nil_prefix⟩),
        continues_cons.mpr ⟨d, hd, continues_nil.mpr rfl⟩, hlarge⟩
    · exact ⟨c :: front, n, List.prefix_cons_iff.mpr (.inr ⟨front, rfl, hfront⟩),
        continues_cons.mpr ⟨d, hd, h⟩, hn⟩

/-- A number grows too large at the first beginning of it that is above the limit. -/
theorem readDigits_eq_tooLarge_iff (hbase : base ≤ 16) (hvalue : value ≤ limit) :
    readDigits base limit value cs = .error .tooLarge ↔ Overruns base limit value cs := by
  induction cs generalizing value with
  | nil => exact iff_of_false (by simp [readDigits]) (not_overruns_nil hvalue)
  | cons c cs ih =>
    rw [readDigits, overruns_cons hvalue]
    simp only [← digitValue?_eq_some_iff hbase]
    cases digitValue? base c with
    | none => simp
    | some d =>
      simp only [Option.some.injEq, exists_eq_left']
      by_cases hroom : value * base + d ≤ limit
      · rw [if_pos hroom, ih hroom]
        simp [Nat.not_lt.mpr hroom]
      · rw [if_neg hroom]
        exact iff_of_true rfl (.inl (Nat.lt_of_not_le hroom))

/-- Among digits it is never the emptiness that is complained about. -/
theorem readDigits_ne_empty (base limit value : Nat) (cs : List Char) :
    readDigits base limit value cs ≠ .error .empty := by
  induction cs generalizing value with
  | nil => simp [readDigits]
  | cons c cs ih =>
    rw [readDigits]
    split
    next => simp
    next =>
      split
      next => exact ih _
      next => simp

/-! ## Numerals -/

/-- The characters write this number: a `+` or nothing, and at least one digit. -/
def IsNumeral (base : Nat) (cs : List Char) (n : Nat) : Prop :=
  ∃ digits ds, (cs = digits ∨ cs = '+' :: digits) ∧ digits ≠ [] ∧
    List.Forall₂ (IsDigit base) digits ds ∧ n = Nat.ofDigits base ds.reverse

/-- Why the characters are not read as a number up to the limit: there are none, or a beginning of
them is a number above it, or neither is the case and they are no number. -/
def Explains (base limit : Nat) (cs : List Char) : NumberError → Prop
  | .empty => cs = []
  | .tooLarge => ∃ front n, front <+: cs ∧ IsNumeral base front n ∧ limit < n
  | .invalidDigit => cs ≠ [] ∧ (∀ n, ¬ IsNumeral base cs n) ∧
    ∀ front n, front <+: cs → IsNumeral base front n → n ≤ limit

/-- The characters without a sign. -/
def unsigned : List Char → List Char
  | '+' :: cs => cs
  | cs => cs

theorem unsigned_of_ne (hc : c ≠ '+') (cs : List Char) : unsigned (c :: cs) = c :: cs := by
  unfold unsigned
  split
  next heq => exact absurd (List.cons.inj heq).1 hc
  next => rfl

/-- A numeral is one without its sign. -/
theorem isNumeral_iff (hbase : base ≤ 16) :
    IsNumeral base cs n ↔ unsigned cs ≠ [] ∧ Continues base 0 (unsigned cs) n := by
  have hzero : ∀ ds : List Nat, 0 * base ^ ds.length + Nat.ofDigits base ds.reverse =
      Nat.ofDigits base ds.reverse := by
    intro ds
    rw [Nat.zero_mul, Nat.zero_add]
  constructor
  · rintro ⟨digits, ds, hcs, hne, hds, rfl⟩
    have hunsigned : unsigned cs = digits := by
      rcases hcs with rfl | rfl
      · cases hds with
        | nil => exact absurd rfl hne
        | cons hd => exact unsigned_of_ne (fun hc => not_isDigit_plus hbase _ (hc ▸ hd)) _
      · rfl
    rw [hunsigned]
    exact ⟨hne, ds, hds, (hzero ds).symm⟩
  · rintro ⟨hne, ds, hds, rfl⟩
    refine ⟨unsigned cs, ds, ?_, hne, hds, hzero ds⟩
    unfold unsigned
    split
    next => exact .inr rfl
    next => exact .inl rfl

/-- What is read of characters that are not just a sign. -/
theorem readNumber_of_unsigned (base limit : Nat) (h : unsigned cs ≠ []) :
    readNumber base limit cs = readDigits base limit 0 (unsigned cs) := by
  unfold readNumber
  split
  next => exact absurd rfl h
  next => exact absurd rfl h
  next => rfl
  next hother hsign =>
    cases cs with
    | nil => exact absurd rfl h
    | cons c cs =>
      rw [unsigned_of_ne (fun hc => hsign cs (hc ▸ rfl))]

/-- A sign alone is a bad digit, while nothing at all is empty. -/
theorem readNumber_of_unsigned_eq_nil (base limit : Nat) (h : unsigned cs = []) :
    readNumber base limit cs = .error (if cs = [] then .empty else .invalidDigit) := by
  cases cs with
  | nil => rfl
  | cons c cs =>
    by_cases hc : c = '+'
    · obtain rfl := hc
      obtain rfl : cs = [] := h
      rfl
    · rw [unsigned_of_ne hc] at h
      exact absurd h (by simp)

/-- **The numbers that are read** are the numerals up to the limit. -/
theorem readNumber_eq_ok_iff (hbase : base ≤ 16) :
    readNumber base limit cs = .ok n ↔ IsNumeral base cs n ∧ n ≤ limit := by
  rw [isNumeral_iff hbase]
  by_cases h : unsigned cs = []
  · rw [readNumber_of_unsigned_eq_nil base limit h]
    exact iff_of_false (by simp) fun hn => hn.1.1 h
  · rw [readNumber_of_unsigned base limit h, readDigits_eq_ok_iff hbase (Nat.zero_le limit)]
    simp [h]

/-- A beginning of a number is one with the sign or without. -/
theorem overruns_unsigned_iff (hbase : base ≤ 16) :
    (∃ front n, front <+: cs ∧ IsNumeral base front n ∧ limit < n) ↔
      Overruns base limit 0 (unsigned cs) := by
  constructor
  · -- a beginning of the text, less the sign, is a beginning of what is behind the sign
    rintro ⟨front, n, ⟨rest, rfl⟩, hfront, hn⟩
    obtain ⟨hne, hfront⟩ := (isNumeral_iff hbase).mp hfront
    refine ⟨unsigned front, n, ?_, hfront, hn⟩
    cases front with
    | nil => exact absurd rfl hne
    | cons c front =>
      by_cases hc : c = '+'
      · obtain rfl := hc
        exact List.prefix_append front rest
      · rw [List.cons_append, unsigned_of_ne hc, unsigned_of_ne hc]
        exact List.prefix_append (c :: front) rest
  · -- and a beginning behind the sign is one of the text with the sign in front
    rintro ⟨front, n, hprefix, hfront, hn⟩
    have hne : front ≠ [] := by
      rintro rfl
      exact Nat.not_lt_zero limit (continues_nil.mp hfront ▸ hn)
    cases cs with
    | nil => exact absurd (List.prefix_nil.mp hprefix) hne
    | cons c cs =>
      by_cases hc : c = '+'
      · obtain rfl := hc
        refine ⟨'+' :: front, n, List.prefix_cons_iff.mpr (.inr ⟨front, rfl, hprefix⟩), ?_, hn⟩
        exact (isNumeral_iff hbase).mpr ⟨hne, hfront⟩
      · rw [unsigned_of_ne hc] at hprefix
        obtain ⟨rest, hrest⟩ := hprefix
        refine ⟨front, n, ⟨rest, hrest⟩, (isNumeral_iff hbase).mpr ?_, hn⟩
        obtain ⟨c', front, rfl⟩ := List.exists_cons_of_ne_nil hne
        obtain ⟨rfl, -⟩ := List.cons.inj hrest
        rw [unsigned_of_ne hc]
        exact ⟨hne, hfront⟩

/-- A number is too large exactly if a beginning of it is. -/
theorem readNumber_eq_tooLarge_iff (hbase : base ≤ 16) :
    readNumber base limit cs = .error .tooLarge ↔ Explains base limit cs .tooLarge := by
  unfold Explains
  rw [overruns_unsigned_iff hbase]
  by_cases h : unsigned cs = []
  · rw [readNumber_of_unsigned_eq_nil base limit h, h]
    refine iff_of_false ?_ (not_overruns_nil (Nat.zero_le limit))
    split <;> simp
  · rw [readNumber_of_unsigned base limit h]
    exact readDigits_eq_tooLarge_iff hbase (Nat.zero_le limit)

theorem readNumber_eq_empty_iff :
    readNumber base limit cs = .error .empty ↔ cs = [] := by
  constructor
  · intro hread
    by_cases h : unsigned cs = []
    · rw [readNumber_of_unsigned_eq_nil base limit h] at hread
      by_contra hne
      rw [if_neg hne] at hread
      exact absurd hread (by simp)
    · rw [readNumber_of_unsigned base limit h] at hread
      exact absurd hread (readDigits_ne_empty base limit 0 _)
  · rintro rfl
    rfl

/-- **The complaints about a number** are the ones that explain it. -/
theorem readNumber_eq_error_iff (hbase : base ≤ 16) {e : NumberError} :
    readNumber base limit cs = .error e ↔ Explains base limit cs e := by
  cases e with
  | empty => exact readNumber_eq_empty_iff
  | tooLarge => exact readNumber_eq_tooLarge_iff hbase
  | invalidDigit =>
    -- an invalid digit is complained about if there is no other complaint and no number
    have hempty : readNumber base limit cs = .error .empty ↔ cs = [] := readNumber_eq_empty_iff
    have hlarge : readNumber base limit cs = .error .tooLarge ↔ Explains base limit cs .tooLarge :=
      readNumber_eq_tooLarge_iff hbase
    have hok : ∀ n, readNumber base limit cs = .ok n ↔ IsNumeral base cs n ∧ n ≤ limit :=
      fun _ => readNumber_eq_ok_iff hbase
    constructor
    · intro hread
      have hsmall : ∀ front n, front <+: cs → IsNumeral base front n → n ≤ limit := by
        intro front n hfront hn
        by_contra hno
        have hread' := hlarge.mpr ⟨front, n, hfront, hn, Nat.lt_of_not_le hno⟩
        exact absurd (hread.symm.trans hread') (by simp)
      refine ⟨?_, ?_, hsmall⟩
      · intro hnil
        exact absurd (hread.symm.trans (hempty.mpr hnil)) (by simp)
      · intro n hn
        have hread' := (hok n).mpr ⟨hn, hsmall cs n (List.prefix_refl cs) hn⟩
        exact absurd (hread.symm.trans hread') (by simp)
    · rintro ⟨hne, hno, hsmall⟩
      cases hread : readNumber base limit cs with
      | ok n => exact absurd ((hok n).mp hread).1 (hno n)
      | error e =>
        cases e with
        | empty => exact absurd (hempty.mp hread) hne
        | tooLarge =>
          obtain ⟨front, n, hfront, hn, hlimit⟩ := hlarge.mp hread
          exact absurd (hsmall front n hfront hn) (Nat.not_le.mpr hlimit)
        | invalidDigit => rfl

/-! ## Reading on -/

section Bind

variable {ε α β : Type} {x : Except ε α} {f : α → Except ε β}

/-- Two readings in a row succeed if the second does after the first. -/
theorem bind_eq_ok_iff {b : β} : x >>= f = .ok b ↔ ∃ a, x = .ok a ∧ f a = .ok b := by
  cases x with
  | error e => simp [bind, Except.bind]
  | ok a => simp [bind, Except.bind]

/-- They fail with the error of the first, or of the second after the first. -/
theorem bind_eq_error_iff {e : ε} :
    x >>= f = .error e ↔ x = .error e ∨ ∃ a, x = .ok a ∧ f a = .error e := by
  cases x with
  | error e' => simp [bind, Except.bind]
  | ok a => simp [bind, Except.bind]

end Bind

end VideoOutput.Text
