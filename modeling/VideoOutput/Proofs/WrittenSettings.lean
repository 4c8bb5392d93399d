import VideoOutput.Proofs.JsonText
import VideoOutput.Settings.Json

/-!
# Written settings

How settings can be written, as a record or as a list. A record has members for some of the fields,
in any order, and a list has the values of the first ones; either way spaces may stand between any
two parts. What is left out has its default.

This is the JSON grammar as far as it is needed, and it knows of no reader. A value is a word, a
number, a string, a list or a record (`IsJson`); a record is given by its keys with the texts of
their values (`IsRecordOf`), a list by the texts of its elements (`IsListOf`). Of the fields it is
known which values they can hold (`Field.Holds`) and how such values are written
(`FieldValue.IsWritten`).

Settings are determined by the values in their fields (`eq_of_value_eq`). Storing the values of all
chosen fields into the defaults, in any order, therefore makes the settings that are written
(`IsChoice.copyAll_eq`), provided that the others have their defaults (`IsChoice`).
-/

namespace VideoOutput

namespace Json

/-! ## Padding and commas -/

/-- The text, perhaps with spaces around it. -/
def IsPadded (text padded : List Char) : Prop :=
  ∃ before after, IsBlank before ∧ IsBlank after ∧ padded = before ++ (text ++ after)

/-- Items with commas between them. Where there is no item, spaces may stand in its place. -/
inductive IsSeparated : List (List Char) → List Char → Prop where
  | none {blank : List Char} (h : IsBlank blank) : IsSeparated [] blank
  | some (item : List Char) (items : List (List Char)) :
      IsSeparated (item :: items) ([','].intercalate (item :: items))

/-- The member of a record with this key and this value. -/
def IsMember (key : String) (value member : List Char) : Prop :=
  ∃ name paddedName paddedValue, IsString key name ∧ IsPadded name paddedName ∧
    IsPadded value paddedValue ∧ member = paddedName ++ ':' :: paddedValue

/-- A record with these members. -/
def IsRecord (members : List (List Char)) (text : List Char) : Prop :=
  ∃ inner, IsSeparated members inner ∧ IsPadded ('{' :: (inner ++ ['}'])) text

/-- A list with these elements. -/
def IsList (elements : List (List Char)) (text : List Char) : Prop :=
  ∃ inner, IsSeparated elements inner ∧ IsPadded ('[' :: (inner ++ [']'])) text

/-! ## Values -/

/-- At least one decimal digit. -/
def IsDigits (text : List Char) : Prop :=
  text ≠ [] ∧ ∀ c ∈ text, c.isDigit = true

/-- A number: an optional minus, digits without a leading zero, an optional fraction and an optional
exponent. -/
def IsNumber (text : List Char) : Prop :=
  ∃ sign whole fraction exponent, text = sign ++ (whole ++ (fraction ++ exponent)) ∧
    (sign = [] ∨ sign = ['-']) ∧
    (IsDigits whole ∧ (whole.head? = some '0' → whole = ['0'])) ∧
    (fraction = [] ∨ ∃ digits, IsDigits digits ∧ fraction = '.' :: digits) ∧
    (exponent = [] ∨ ∃ letter expSign digits, letter ∈ ['e', 'E'] ∧ expSign ∈ [[], ['+'], ['-']] ∧
      IsDigits digits ∧ exponent = letter :: (expSign ++ digits))

/-- A value. -/
inductive IsJson : List Char → Prop where
  | word {text : List Char} (h : text ∈ ["null".toList, "true".toList, "false".toList]) :
      IsJson text
  | number {text : List Char} (h : IsNumber text) : IsJson text
  | string {s : String} {text : List Char} (h : IsString s text) : IsJson text
  | list {elements padded : List (List Char)} {inner : List Char} (h : ∀ e ∈ elements, IsJson e)
      (hpadded : List.Forall₂ IsPadded elements padded) (hinner : IsSeparated padded inner) :
      IsJson ('[' :: (inner ++ [']']))
  | record {members : List (String × List Char)} {written : List (List Char)} {inner : List Char}
      (h : ∀ m ∈ members, IsJson m.2)
      (hwritten : List.Forall₂ (fun m w => IsMember m.1 m.2 w) members written)
      (hinner : IsSeparated written inner) : IsJson ('{' :: (inner ++ ['}']))

/-- A record with these keys, each with the text of its value. -/
def IsRecordOf (members : List (String × List Char)) (text : List Char) : Prop :=
  ∃ written, List.Forall₂ (fun m w => IsMember m.1 m.2 w) members written ∧ IsRecord written text

/-- A list of the values with these texts. -/
def IsListOf (elements : List (List Char)) (text : List Char) : Prop :=
  ∃ padded, List.Forall₂ IsPadded elements padded ∧ IsList padded text

/-- The decimal digits of a number are a number. -/
theorem isNumber_decimal (n : Nat) : IsNumber (decimal n) := by
  refine ⟨[], decimal n, [], [], ?_, .inl rfl, ⟨⟨decimal_ne_nil n, ?_⟩, ?_⟩, .inl rfl, .inl rfl⟩
  · simp
  · exact fun c hc => isDigit_of_mem_decimal hc
  · intro hzero
    obtain ⟨cs, hcs⟩ := List.head?_eq_some_iff.mp hzero
    cases cs with
    | nil => exact hcs
    | cons c cs =>
      -- no number of more than one digit starts with a zero
      have hdigits : digitsOf n = 0 :: (c :: cs).map fun c => c.toNat - 0x30 := by
        rw [digitsOf, hcs, List.map_cons]
        rfl
      exact absurd hdigits (digitsOf_ne n _ _)

/-- No value starts with a space or with the bracket that ends a list. -/
theorem IsJson.exists_cons {text : List Char} (h : IsJson text) :
    ∃ c cs, text = c :: cs ∧ isSpace c = false ∧ c ≠ ']' := by
  cases h with
  | word h =>
    simp only [List.mem_cons, List.not_mem_nil, or_false] at h
    rcases h with rfl | rfl | rfl
    all_goals exact ⟨_, _, rfl, by decide, by decide⟩
  | number h =>
    obtain ⟨sign, whole, fraction, exponent, rfl, hsign, ⟨⟨hne, hdigits⟩, -⟩, -, -⟩ := h
    rcases hsign with rfl | rfl
    · obtain ⟨c, cs, rfl⟩ := List.exists_cons_of_ne_nil hne
      have hdigit := hdigits c List.mem_cons_self
      exact ⟨c, _, rfl, isSpace_of_isDigit hdigit, ne_of_isDigit hdigit rfl⟩
    · exact ⟨'-', _, rfl, by decide, by decide⟩
  | string h =>
    obtain ⟨parts, -, rfl⟩ := h
    exact ⟨'"', _, rfl, by decide, by decide⟩
  | list => exact ⟨'[', _, rfl, by decide, by decide⟩
  | record => exact ⟨'{', _, rfl, by decide, by decide⟩

/-! ## Records and lists in parts -/

/-- The items behind the first one, each with its comma. -/
def withCommas (items : List (List Char)) : List Char :=
  items.flatMap fun item => ',' :: item

theorem intercalate_eq (item : List Char) (items : List (List Char)) :
    [','].intercalate (item :: items) = item ++ withCommas items := by
  induction items generalizing item with
  | nil => simp [List.intercalate, withCommas]
  | cons next items ih =>
    have hnext := ih next
    simp only [List.intercalate, List.intersperse_cons_cons, List.flatten_cons] at hnext ⊢
    rw [hnext]
    rfl

theorem withCommas_cons_append (item : List Char) (items : List (List Char)) (rest : List Char) :
    withCommas (item :: items) ++ rest = ',' :: (item ++ (withCommas items ++ rest)) := by
  unfold withCommas
  rw [List.flatMap_cons, List.cons_append, List.cons_append, List.append_assoc]

theorem withCommas_append (items items' : List (List Char)) :
    withCommas (items ++ items') = withCommas items ++ withCommas items' :=
  List.flatMap_append

/-- A number that stands in front of a comma, or in front of what ends a number, is ended there. -/
theorem endsNumber_withCommas (items : List (List Char)) {rest : List Char} (h : EndsNumber rest) :
    EndsNumber (withCommas items ++ rest) := by
  cases items with
  | nil => exact h
  | cons item items => exact endsNumber_cons (by decide) _

theorem isPadded_self (text : List Char) : IsPadded text text := by
  refine ⟨[], [], by simp [IsBlank], by simp [IsBlank], ?_⟩
  rw [List.nil_append, List.append_nil]

/-- A member whose key is written as it is. -/
def plainMember (key : String) (value : List Char) : List Char :=
  '"' :: (key.toList ++ ['"']) ++ ':' :: value

/-- A key of plain characters in quotation marks, a colon and the value make a member. -/
theorem isMember_plainMember {key : String}
    (h : key.toList.all isPlain = true) {value padded : List Char}
    (hvalue : IsPadded value padded) : IsMember key value (plainMember key padded) :=
  ⟨_, _, padded, isString_of_plain h, isPadded_self _, hvalue, rfl⟩

/-- Behind its spaces a member starts with the quote of its key. -/
theorem exists_of_isMember {key : String} {value member : List Char}
    (h : IsMember key value member) (rest : List Char) :
    ∃ blank blank' paddedValue body, IsBlank blank ∧ IsBlank blank' ∧ IsPadded value paddedValue ∧
      member ++ rest = blank ++ '"' :: body ∧
      readString body = .ok (key.toList, blank' ++ ':' :: (paddedValue ++ rest)) := by
  obtain ⟨name, _, paddedValue, hname, ⟨blank, blank', hblank, hblank', rfl⟩, hvalue, rfl⟩ := h
  obtain ⟨body, hbody, hread⟩ :=
    exists_of_isString hname (blank' ++ ':' :: (paddedValue ++ rest))
  refine ⟨blank, blank', paddedValue, body, hblank, hblank', hvalue, ?_, hread⟩
  rw [← hbody]
  simp only [List.append_assoc, List.cons_append]

end Json

namespace Settings

open Json

variable {c s : Settings} {f : Field}

/-! ## The fields and their values -/

/-- The value of a field, of one of three kinds. -/
inductive FieldValue where
  | policy (policy : Edid.ChecksumPolicy)
  | text (text : String)
  | number (n : Nat)
  deriving DecidableEq

/-- The ways to write a value. -/
def FieldValue.IsWritten : FieldValue → List Char → Prop
  | .policy p, written => IsString p.text written
  | .text s, written => IsString s written
  | .number n, written => written = decimal n

namespace Field

/-- The value that settings have in a field. -/
def value (f : Field) (c : Settings) : FieldValue :=
  match f with
  | checksum => .policy c.checksum
  | fallback => .text c.fallback
  | hdmiCount => .number c.hdmiCount.toNat
  | compositeCount => .number c.compositeCount.toNat
  | queueLimit => .number c.queueLimit

/-- The field can hold the value: it is of the right kind and, if a number, in range. -/
def Holds (f : Field) : FieldValue → Prop
  | .policy _ => f = checksum
  | .text _ => f = fallback
  | .number n => (f = hdmiCount ∨ f = compositeCount) ∧ n < UInt8.size ∨
      f = queueLimit ∧ n < UInt64.size

/-- The settings with a value stored in the field. A value of the wrong kind changes nothing. -/
def store (f : Field) (v : FieldValue) (s : Settings) : Settings :=
  match f, v with
  | checksum, .policy policy => { s with checksum := policy }
  | fallback, .text text => { s with fallback := text }
  | hdmiCount, .number n => { s with hdmiCount := UInt8.ofNat n }
  | compositeCount, .number n => { s with compositeCount := UInt8.ofNat n }
  | queueLimit, .number n => { s with queueLimit := n }
  | _, _ => s

theorem mem_all (f : Field) : f ∈ all := by
  cases f <;> decide

theorem nodup_all : all.Nodup := by decide

/-- No two fields share a key, so the key of a member decides which field it sets. -/
theorem key_injective : Function.Injective key := by
  intro f g h
  cases f <;> cases g <;> first | rfl | exact absurd h (by decide)

theorem isMember_plainMember (f : Field) {value padded : List Char} (h : IsPadded value padded) :
    IsMember f.key value (plainMember f.key padded) := by
  refine Json.isMember_plainMember ?_ h
  cases f <;> rfl

/-- Every field holds the value that settings have in it, with a limit on the queue. -/
theorem holds_value (f : Field) (hlimit : c.queueLimit < UInt64.size) : f.Holds (f.value c) := by
  cases f with
  | checksum => rfl
  | fallback => rfl
  | hdmiCount => exact .inl ⟨.inl rfl, c.hdmiCount.toNat_lt⟩
  | compositeCount => exact .inl ⟨.inr rfl, c.compositeCount.toNat_lt⟩
  | queueLimit => exact .inr ⟨rfl, hlimit⟩

theorem value_store (f : Field) (s : Settings) : f.value (f.store (f.value c) s) = f.value c := by
  cases f <;> simp [value, store]

theorem value_store_of_ne {f g : Field} (h : g ≠ f) (v : FieldValue) (s : Settings) :
    g.value (f.store v s) = g.value s := by
  cases f <;> cases v <;> cases g <;> first | rfl | exact absurd rfl h

end Field

/-- Settings are determined by the values of their fields. -/
theorem eq_of_value_eq (h : ∀ f : Field, f.value s = f.value c) : s = c := by
  have hchecksum : s.checksum = c.checksum := FieldValue.policy.inj (h .checksum)
  have hfallback : s.fallback = c.fallback := FieldValue.text.inj (h .fallback)
  have hhdmi : s.hdmiCount = c.hdmiCount :=
    UInt8.toNat_inj.mp (FieldValue.number.inj (h .hdmiCount))
  have hcomposite : s.compositeCount = c.compositeCount :=
    UInt8.toNat_inj.mp (FieldValue.number.inj (h .compositeCount))
  have hqueue : s.queueLimit = c.queueLimit := FieldValue.number.inj (h .queueLimit)
  cases s
  cases c
  simp_all

/-- The settings after the given fields were read. -/
def copyAll (c : Settings) (fields : List Field) (s : Settings) : Settings :=
  fields.foldl (fun s f => f.store (f.value c) s) s

/-- A field that is not copied keeps what it had. -/
theorem value_copyAll_of_notMem {fields : List Field} (h : f ∉ fields) :
    f.value (copyAll c fields s) = f.value s := by
  induction fields generalizing s with
  | nil => rfl
  | cons g fields ih =>
    have hne : f ≠ g := fun heq => h (heq ▸ List.mem_cons_self)
    have hrest : f ∉ fields := fun hmem => h (List.mem_cons_of_mem g hmem)
    exact (ih hrest).trans (Field.value_store_of_ne hne _ s)

/-- A field that is copied has the value of the original, wherever it stands in the list. -/
theorem value_copyAll_of_mem {fields : List Field} (h : f ∈ fields) :
    f.value (copyAll c fields s) = f.value c := by
  induction fields generalizing s with
  | nil => exact absurd h (by simp)
  | cons g fields ih =>
    by_cases hlater : f ∈ fields
    · exact ih hlater
    · obtain rfl : f = g := (List.mem_cons.mp h).resolve_right hlater
      exact (value_copyAll_of_notMem hlater).trans (Field.value_store f s)

/-- Fields that can be given in order to write settings: none twice, and with the defaults in all
others. -/
structure IsChoice (c : Settings) (fields : List Field) : Prop where
  nodup : fields.Nodup
  rest : ∀ f : Field, f ∉ fields → f.value c = f.value {}

instance (c : Settings) (fields : List Field) : Decidable (IsChoice c fields) :=
  decidable_of_iff
    (fields.Nodup ∧ ∀ f ∈ Field.all, f ∉ fields → f.value c = f.value {})
    ⟨fun h => ⟨h.1, fun f => h.2 f (Field.mem_all f)⟩, fun h => ⟨h.nodup, fun f _ => h.rest f⟩⟩

/-- Reading the chosen fields into the defaults gives the settings. -/
theorem IsChoice.copyAll_eq {fields : List Field} (h : IsChoice c fields) :
    copyAll c fields {} = c := by
  apply eq_of_value_eq
  intro f
  by_cases hf : f ∈ fields
  · exact value_copyAll_of_mem hf
  · exact (value_copyAll_of_notMem hf).trans (h.rest f hf).symm

/-- The member of a record that gives a field: its key and the text of its value. -/
def WritesMember (c : Settings) (f : Field) (member : String × List Char) : Prop :=
  member.1 = f.key ∧ (f.value c).IsWritten member.2

/-- The element of a list that gives a field. -/
def WritesElement (c : Settings) (f : Field) (element : List Char) : Prop :=
  (f.value c).IsWritten element

/-- What a field holds is written as a value. -/
theorem FieldValue.IsWritten.isJson {v : FieldValue} {text : List Char} (h : v.IsWritten text) :
    IsJson text := by
  cases v with
  | policy policy => exact .string h
  | text t => exact .string h
  | number n =>
    obtain rfl : text = decimal n := h
    exact .number (isNumber_decimal n)

/-- The values of written members are JSON texts, so a reader that accepts all of these accepts
them. -/
theorem isJson_of_writesMember {fields : List Field} {members : List (String × List Char)}
    (h : List.Forall₂ (WritesMember c) fields members) : ∀ m ∈ members, IsJson m.2 := by
  induction h with
  | nil => exact fun m hm => absurd hm (by simp)
  | cons hmember _ ih => exact List.forall_mem_cons.mpr ⟨hmember.2.isJson, ih⟩

theorem isJson_of_writesElement {fields : List Field} {elements : List (List Char)}
    (h : List.Forall₂ (WritesElement c) fields elements) : ∀ e ∈ elements, IsJson e := by
  induction h with
  | nil => exact fun e he => absurd he (by simp)
  | cons helement _ ih =>
    exact List.forall_mem_cons.mpr ⟨FieldValue.IsWritten.isJson helement, ih⟩

end Settings

end VideoOutput
