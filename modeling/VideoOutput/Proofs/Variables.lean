import Mathlib.Data.List.DropRight
import VideoOutput.Proofs.Catalog
import VideoOutput.Proofs.Numerals
import VideoOutput.Settings.Variables

/-!
# Settings read from variables

What counts of a variable is its value without the blanks at the ends (`Text.IsTrimmed`). A variable
that is not set leaves its default, and any other has to mean something: a policy in letters of
either case, a numeral of 64 bits, or the name of a mode (`Decides`). Settings are read if all three
variables do, and are then the ones decided on; otherwise the first of them that does not is told
(`IsRefusal`). `isReadFrom` states the two for every environment.

A bad policy or number is told with the whole value. The fallback is judged with the settings it is
put into, as it is in settings from anywhere else, so of a bad one its name is told, without blanks.

Meanings are relations between a text and a value and do not mention the functions that read. Each
reader is compared with its relation once (`policyOf?_eq_some_iff`, `queueLimitOf?_eq_some_iff`),
and `override_eq_ok_iff` lifts the comparison to a variable that may be missing and may have blanks.
What remains is the order in which the three are looked at, which decides only between errors.
-/

namespace VideoOutput

/-! ## Without blanks -/

namespace Text

variable {cs word : List Char}

/-- The word is what the characters are without blanks at either end. -/
def IsTrimmed (cs word : List Char) : Prop :=
  (∃ before after, cs = before ++ word ++ after ∧ ∀ c ∈ before ++ after, isBlank c = true) ∧
    (∀ c ∈ word.head?, isBlank c = false) ∧ ∀ c ∈ word.getLast?, isBlank c = false

/-- Of blanks in front of something else nothing is left. -/
theorem dropWhile_append_of_blank {before rest : List Char}
    (hbefore : ∀ c ∈ before, isBlank c = true) (hrest : ∀ c ∈ rest.head?, isBlank c = false) :
    (before ++ rest).dropWhile isBlank = rest := by
  rw [List.dropWhile_append_of_pos hbefore]
  cases rest with
  | nil => rfl
  | cons c rest => rw [List.dropWhile_cons_of_neg (by simp [hrest c rfl])]

/-- The blanks at the end are cut off, and no more than these. -/
theorem trimEnd_append_of_blank {front after : List Char}
    (hafter : ∀ c ∈ after, isBlank c = true) (hfront : ∀ c ∈ front.getLast?, isBlank c = false) :
    trimEnd (front ++ after) = front := by
  rw [← List.head?_reverse] at hfront
  unfold trimEnd
  rw [List.reverse_append, dropWhile_append_of_blank (by simpa using hafter) hfront,
    List.reverse_reverse]

/-- What is cut is the value without its blanks, in the sense in which the documentation says it. -/
theorem isTrimmed_trimChars (cs : List Char) : IsTrimmed cs (trimChars cs) := by
  have hfront : cs.takeWhile isBlank ++ cs.dropWhile isBlank = cs := List.takeWhile_append_dropWhile
  have hend : trimChars cs ++ (cs.dropWhile isBlank).rtakeWhile isBlank = cs.dropWhile isBlank :=
    List.rdropWhile_append_rtakeWhile
  refine ⟨⟨cs.takeWhile isBlank, (cs.dropWhile isBlank).rtakeWhile isBlank, ?_, ?_⟩, ?_, ?_⟩
  · rw [List.append_assoc, hend, hfront]
  · rw [List.forall_mem_append]
    exact ⟨fun c hc => List.mem_takeWhile_imp hc, fun c hc => List.mem_rtakeWhile_imp hc⟩
  · -- the word starts as what is behind the blanks does
    intro c hc
    have hhead : c ∈ (cs.dropWhile isBlank).head? := by
      rw [← hend, List.head?_append, Option.mem_def.mp hc]
      rfl
    simpa [Option.mem_def.mp hhead] using List.head?_dropWhile_not isBlank cs
  · intro c hc
    obtain ⟨hne, rfl⟩ := List.mem_getLast?_eq_getLast hc
    exact Bool.eq_false_iff.mpr (List.rdropWhile_last_not isBlank (cs.dropWhile isBlank) hne)

/-- There is only one way to leave the blanks out. -/
theorem trimChars_eq_iff : trimChars cs = word ↔ IsTrimmed cs word := by
  constructor
  · rintro rfl
    exact isTrimmed_trimChars cs
  · rintro ⟨⟨before, after, rfl, hblank⟩, hhead, hlast⟩
    obtain ⟨hbefore, hafter⟩ := List.forall_mem_append.mp hblank
    unfold trimChars
    cases word with
    | nil =>
      have hnone : (before ++ after).dropWhile isBlank = [] := List.dropWhile_eq_nil_iff.mpr hblank
      rw [List.append_nil, hnone]
      rfl
    | cons c word =>
      have hstart : ∀ c' ∈ (c :: word ++ after).head?, isBlank c' = false := hhead
      rw [List.append_assoc, dropWhile_append_of_blank hbefore hstart,
        trimEnd_append_of_blank hafter hlast]

end Text

namespace Settings

open Mode (Catalog ModeRow)
open Text (IsTrimmed IsNumeral bind_eq_ok_iff bind_eq_error_iff)

variable {lookup : String → Option String} {s : Settings} {e : SettingsError}

/-! ## What a variable means -/

/-- The word is the policy in letters of either case. -/
def NamesPolicy (word : List Char) (policy : Edid.ChecksumPolicy) : Prop :=
  word.map Char.toLower = policy.text.toList

/-- The word is a numeral that 64 bits hold. -/
def IsQueueLimit (word : List Char) (n : Nat) : Prop :=
  IsNumeral 10 word n ∧ n < 2 ^ 64

/-- The word is the name of a mode. -/
def NamesMode (word : List Char) (name : String) : Prop :=
  word = name.toList ∧ name ∈ Catalog.platformModes.map ModeRow.name

section Override

variable {α : Type} {Means : List Char → α → Prop} {default a : α} {value name : String}
  {read : String → Option α}

/-- The value means this, whatever blanks are around it. -/
def HasMeaning (Means : List Char → α → Prop) (value : String) (a : α) : Prop :=
  ∃ word, IsTrimmed value.toList word ∧ Means word a

/-- What a variable decides on: the default if it is not set, and else what its value means. -/
def Decides (Means : List Char → α → Prop) (default : α) : Option String → α → Prop
  | none, a => a = default
  | some value, a => HasMeaning Means value a

/-- A value has the meaning of what is left of it without its blanks. -/
theorem hasMeaning_iff : HasMeaning Means value a ↔ Means (Text.trimChars value.toList) a := by
  unfold HasMeaning
  simp only [← Text.trimChars_eq_iff, exists_eq_left']

/-- A variable decides if it is not set or has a meaning. -/
theorem override_eq_ok_iff (hread : ∀ value a, read value = some a ↔ HasMeaning Means value a) :
    override lookup name read default = .ok a ↔ Decides Means default (lookup name) a := by
  unfold override Decides
  cases lookup name with
  | none => simp [eq_comm]
  | some value =>
    dsimp only
    rw [← hread]
    cases read value with
    | none => simp
    | some b => simp

/-- A variable without a meaning is refused with its whole value. -/
theorem override_eq_error_iff (hread : ∀ value a, read value = some a ↔ HasMeaning Means value a) :
    override lookup name read default = .error e ↔
      ∃ value, lookup name = some value ∧ (¬ ∃ a, HasMeaning Means value a) ∧
        e = .variable name value := by
  unfold override
  cases lookup name with
  | none => simp
  | some value =>
    simp only [← hread, Option.some.injEq, exists_eq_left']
    cases read value with
    | none => simp [eq_comm]
    | some b => simp

end Override

/-- A policy is named by its word, in letters of either case. -/
theorem policyOf?_eq_some_iff (value : String) (policy : Edid.ChecksumPolicy) :
    policyOf? value = some policy ↔ HasMeaning NamesPolicy value policy := by
  rw [hasMeaning_iff]
  unfold policyOf? NamesPolicy
  dsimp only
  generalize (Text.trimChars value.toList).map Char.toLower = word
  constructor
  · intro h
    split at h
    next hstrict =>
      obtain rfl := Option.some.inj h
      exact hstrict
    next =>
      split at h
      next hlenient =>
        obtain rfl := Option.some.inj h
        exact hlenient
      next => exact absurd h (by simp)
  · rintro rfl
    cases policy with
    | strict => rfl
    | lenient => rfl

/-- A limit is a numeral that fits into 64 bits. -/
theorem queueLimitOf?_eq_some_iff (value : String) (n : Nat) :
    queueLimitOf? value = some n ↔ HasMeaning IsQueueLimit value n := by
  have hread : Text.readNumber 10 greatestQueueLimit (Text.trimChars value.toList) = .ok n ↔
      IsNumeral 10 (Text.trimChars value.toList) n ∧ n ≤ greatestQueueLimit :=
    Text.readNumber_eq_ok_iff (by decide)
  have hlimit : n ≤ greatestQueueLimit ↔ n < 2 ^ 64 := Nat.lt_succ_iff.symm
  rw [hasMeaning_iff, IsQueueLimit, ← hlimit, ← hread, queueLimitOf?]
  cases Text.readNumber 10 greatestQueueLimit (Text.trimChars value.toList) with
  | error cause => simp [Except.toOption]
  | ok m => simp [Except.toOption]

/-! ## The check -/

/-- With the platform's tables only the fallback can be at fault. -/
theorem withFallback_eq (fallback : String) :
    Catalog.withFallback fallback =
      match Catalog.rowOf? Catalog.platformModes fallback with
      | none => .error (.unknownName fallback)
      | some row => .ok ⟨Mode.Resolution.advertised, Catalog.platformModes, row.code⟩ :=
  rfl

/-- Settings with a connector are judged by their fallback. -/
theorem check_of_connector (h : s.hdmiCount ≠ 0) :
    s.check = if s.fallback ∈ Catalog.platformModes.map ModeRow.name then .ok s
      else .error (.fallback (.unknownName s.fallback)) := by
  unfold check catalog
  rw [if_neg (fun hnone => h hnone.1), withFallback_eq]
  cases hrow : Catalog.rowOf? Catalog.platformModes s.fallback with
  | none => rw [if_neg (Catalog.rowOf?_eq_none_iff.mp hrow)]
  | some row =>
    have hknown : s.fallback ∈ Catalog.platformModes.map ModeRow.name := by
      by_contra hunknown
      exact absurd (hrow.symm.trans (Catalog.rowOf?_eq_none_iff.mpr hunknown)) (by simp)
    rw [if_pos hknown]

/-! ## All variables -/

/-- What the variable of the policy decides on. -/
def DecidesPolicy (lookup : String → Option String) : Edid.ChecksumPolicy → Prop :=
  Decides NamesPolicy ({} : Settings).checksum (lookup policyVariable)

/-- What the variable of the queue limit decides on. -/
def DecidesQueueLimit (lookup : String → Option String) : Nat → Prop :=
  Decides IsQueueLimit ({} : Settings).queueLimit (lookup queueVariable)

/-- What the variable of the fallback decides on. -/
def DecidesFallback (lookup : String → Option String) : String → Prop :=
  Decides NamesMode ({} : Settings).fallback (lookup fallbackVariable)

/-- The settings are those decided on, and the defaults elsewhere. -/
structure AreDecidedOn (lookup : String → Option String) (s : Settings) : Prop where
  checksum : DecidesPolicy lookup s.checksum
  queueLimit : DecidesQueueLimit lookup s.queueLimit
  fallback : DecidesFallback lookup s.fallback
  hdmiCount : s.hdmiCount = ({} : Settings).hdmiCount
  compositeCount : s.compositeCount = ({} : Settings).compositeCount

/-- The first variable that means nothing, and what is told of it. -/
inductive IsRefusal (lookup : String → Option String) : SettingsError → Prop where
  | policy {value : String} (hvalue : lookup policyVariable = some value)
      (hbad : ¬ ∃ policy, HasMeaning NamesPolicy value policy) :
      IsRefusal lookup (.variable policyVariable value)
  | queueLimit (hpolicy : ∃ policy, DecidesPolicy lookup policy) {value : String}
      (hvalue : lookup queueVariable = some value)
      (hbad : ¬ ∃ n, HasMeaning IsQueueLimit value n) :
      IsRefusal lookup (.variable queueVariable value)
  | fallback (hpolicy : ∃ policy, DecidesPolicy lookup policy)
      (hqueue : ∃ n, DecidesQueueLimit lookup n) {value : String} {word : List Char}
      (hvalue : lookup fallbackVariable = some value) (hword : IsTrimmed value.toList word)
      (hbad : ¬ ∃ name, NamesMode word name) :
      IsRefusal lookup (.fallback (.unknownName (String.ofList word)))

/-- The fallback that is put into the settings before they are checked. -/
def rawFallback (lookup : String → Option String) : String :=
  match lookup fallbackVariable with
  | none => ({} : Settings).fallback
  | some value => Text.trim value

/-- The fallback is decided on if the platform knows its name. -/
theorem decidesFallback_iff {name : String} :
    DecidesFallback lookup name ↔
      name = rawFallback lookup ∧ name ∈ Catalog.platformModes.map ModeRow.name := by
  have hdefault : ({} : Settings).fallback ∈ Catalog.platformModes.map ModeRow.name := by decide
  unfold DecidesFallback rawFallback Decides
  cases lookup fallbackVariable with
  | none =>
    constructor
    · rintro rfl
      exact ⟨rfl, hdefault⟩
    · exact And.left
  | some value =>
    dsimp only
    rw [hasMeaning_iff, NamesMode, Text.trim, ← String.toList_inj, String.toList_ofList,
      eq_comm (a := name.toList)]

theorem exists_namesMode_iff {word : List Char} :
    (∃ name, NamesMode word name) ↔
      String.ofList word ∈ Catalog.platformModes.map ModeRow.name := by
  constructor
  · rintro ⟨name, rfl, hknown⟩
    rwa [String.ofList_toList]
  · intro hknown
    exact ⟨_, String.toList_ofList.symm, hknown⟩

/-- An unknown fallback is one that was set. -/
theorem rawFallback_unknown_iff {name : String} :
    rawFallback lookup = name ∧ name ∉ Catalog.platformModes.map ModeRow.name ↔
      ∃ value word, lookup fallbackVariable = some value ∧ IsTrimmed value.toList word ∧
        (¬ ∃ name, NamesMode word name) ∧ name = String.ofList word := by
  have hdefault : ({} : Settings).fallback ∈ Catalog.platformModes.map ModeRow.name := by decide
  unfold rawFallback
  cases lookup fallbackVariable with
  | none =>
    refine iff_of_false ?_ (by simp)
    rintro ⟨rfl, hunknown⟩
    exact hunknown hdefault
  | some value =>
    simp only [exists_namesMode_iff, ← Text.trimChars_eq_iff, Option.some.injEq]
    constructor
    · rintro ⟨rfl, hunknown⟩
      exact ⟨value, _, rfl, rfl, hunknown, rfl⟩
    · rintro ⟨_, _, rfl, rfl, hunknown, rfl⟩
      exact ⟨rfl, hunknown⟩

/-- The policy and the queue limit are read first, then the fallback is judged with all settings,
which have a connector by default. -/
theorem ofVariables_eq (lookup : String → Option String) :
    ofVariables lookup =
      override lookup policyVariable policyOf? ({} : Settings).checksum >>= fun checksum =>
        override lookup queueVariable queueLimitOf? ({} : Settings).queueLimit >>= fun queueLimit =>
          if rawFallback lookup ∈ Catalog.platformModes.map ModeRow.name then
            .ok { checksum, queueLimit, fallback := rawFallback lookup }
          else .error (.fallback (.unknownName (rawFallback lookup))) := by
  have hraw : override lookup fallbackVariable (fun value => some (Text.trim value))
      ({} : Settings).fallback = .ok (rawFallback lookup) := by
    unfold override rawFallback
    cases lookup fallbackVariable with
    | none => rfl
    | some value => rfl
  unfold ofVariables
  dsimp only
  rw [hraw]
  congr 1
  funext checksum
  congr 1
  funext queueLimit
  have hconnector : ({} : Settings).hdmiCount ≠ 0 := by decide
  exact check_of_connector (s := ⟨checksum, rawFallback lookup, _, _, queueLimit⟩) hconnector

theorem ofVariables_eq_ok_iff : ofVariables lookup = .ok s ↔ AreDecidedOn lookup s := by
  rw [ofVariables_eq]
  simp only [bind_eq_ok_iff, override_eq_ok_iff policyOf?_eq_some_iff,
    override_eq_ok_iff queueLimitOf?_eq_some_iff]
  constructor
  · rintro ⟨checksum, hchecksum, queueLimit, hqueueLimit, h⟩
    split at h
    next hknown =>
      obtain rfl := Except.ok.inj h
      exact ⟨hchecksum, hqueueLimit, decidesFallback_iff.mpr ⟨rfl, hknown⟩, rfl, rfl⟩
    next => exact absurd h (by simp)
  · rintro ⟨hchecksum, hqueueLimit, hfallback, hhdmi, hcomposite⟩
    obtain ⟨hraw, hknown⟩ := decidesFallback_iff.mp hfallback
    refine ⟨s.checksum, hchecksum, s.queueLimit, hqueueLimit, ?_⟩
    rw [← hraw, if_pos hknown]
    obtain ⟨checksum, fallback, hdmiCount, compositeCount, queueLimit⟩ := s
    obtain rfl : hdmiCount = _ := hhdmi
    obtain rfl : compositeCount = _ := hcomposite
    rfl

theorem ofVariables_eq_error_iff : ofVariables lookup = .error e ↔ IsRefusal lookup e := by
  rw [ofVariables_eq]
  simp only [bind_eq_error_iff, override_eq_ok_iff policyOf?_eq_some_iff,
    override_eq_ok_iff queueLimitOf?_eq_some_iff, override_eq_error_iff policyOf?_eq_some_iff,
    override_eq_error_iff queueLimitOf?_eq_some_iff]
  -- each variable is looked at only if the ones before it decide
  constructor
  · rintro (⟨value, hvalue, hbad, rfl⟩ | ⟨checksum, hchecksum, h⟩)
    · exact .policy hvalue hbad
    · rcases h with ⟨value, hvalue, hbad, rfl⟩ | ⟨queueLimit, hqueueLimit, h⟩
      · exact .queueLimit ⟨_, hchecksum⟩ hvalue hbad
      · split at h
        next => exact absurd h (by simp)
        next hunknown =>
          obtain rfl := Except.error.inj h
          obtain ⟨value, word, hvalue, hword, hbad, hname⟩ :=
            rawFallback_unknown_iff.mp ⟨rfl, hunknown⟩
          rw [hname]
          exact .fallback ⟨_, hchecksum⟩ ⟨_, hqueueLimit⟩ hvalue hword hbad
  · intro h
    cases h with
    | policy hvalue hbad => exact .inl ⟨_, hvalue, hbad, rfl⟩
    | queueLimit hpolicy hvalue hbad =>
      obtain ⟨checksum, hchecksum⟩ := hpolicy
      exact .inr ⟨checksum, hchecksum, .inl ⟨_, hvalue, hbad, rfl⟩⟩
    | fallback hpolicy hqueue hvalue hword hbad =>
      obtain ⟨checksum, hchecksum⟩ := hpolicy
      obtain ⟨queueLimit, hqueueLimit⟩ := hqueue
      obtain ⟨hraw, hunknown⟩ := rawFallback_unknown_iff.mpr ⟨_, _, hvalue, hword, hbad, rfl⟩
      refine .inr ⟨checksum, hchecksum, .inr ⟨queueLimit, hqueueLimit, ?_⟩⟩
      rw [if_neg (hraw ▸ hunknown), hraw]

/-- How settings are read from variables. -/
structure IsReadFrom (lookup : String → Option String) : Prop where
  /-- What is read is what the variables decide on, -/
  read : ∀ s, ofVariables lookup = .ok s ↔ AreDecidedOn lookup s
  /-- something is read if all of them decide, -/
  succeeds : (∃ s, ofVariables lookup = .ok s) ↔
    (∃ policy, DecidesPolicy lookup policy) ∧ (∃ n, DecidesQueueLimit lookup n) ∧
      ∃ name, DecidesFallback lookup name
  /-- and what is read passes the check. -/
  checked : ∀ s, ofVariables lookup = .ok s → s.check = .ok s
  /-- An error tells the first variable that does not decide. -/
  refused : ∀ e, ofVariables lookup = .error e ↔ IsRefusal lookup e

/-- **Settings are read from the variables** if each of them is unset or has a meaning, whatever the
environment is; they are then what the variables mean, and otherwise the first one without a
meaning is told: a policy or a number with its whole value, a fallback by the name it would be. -/
theorem isReadFrom (lookup : String → Option String) : IsReadFrom lookup := by
  refine ⟨fun _ => ofVariables_eq_ok_iff, ⟨?_, ?_⟩, fun s hs => ?_,
    fun _ => ofVariables_eq_error_iff⟩
  · rintro ⟨s, hs⟩
    obtain ⟨hchecksum, hqueueLimit, hfallback, -, -⟩ := ofVariables_eq_ok_iff.mp hs
    exact ⟨⟨_, hchecksum⟩, ⟨_, hqueueLimit⟩, ⟨_, hfallback⟩⟩
  · rintro ⟨⟨checksum, hchecksum⟩, ⟨queueLimit, hqueueLimit⟩, ⟨fallback, hfallback⟩⟩
    exact ⟨{ checksum, queueLimit, fallback },
      ofVariables_eq_ok_iff.mpr ⟨hchecksum, hqueueLimit, hfallback, rfl, rfl⟩⟩
  · obtain ⟨-, -, hfallback, hhdmi, -⟩ := ofVariables_eq_ok_iff.mp hs
    have hconnector : s.hdmiCount ≠ 0 := by
      rw [hhdmi]
      decide
    rw [check_of_connector hconnector, if_pos (decidesFallback_iff.mp hfallback).2]

/-- The environment in which only the fallback is set. -/
def onlyFallback (value name : String) : Option String :=
  if name = fallbackVariable then some value else none

/-- A bad fallback is not told as a variable with its value. -/
theorem ofVariables_with_unknown_fallback :
    onlyFallback " 4320p " policyVariable = none ∧ onlyFallback " 4320p " queueVariable = none ∧
      onlyFallback " 4320p " fallbackVariable = some " 4320p " ∧
      (¬ ∃ name, DecidesFallback (onlyFallback " 4320p ") name) ∧
      ofVariables (onlyFallback " 4320p ") = .error (.fallback (.unknownName "4320p")) ∧
      ofVariables (onlyFallback " 4320p ") ≠ .error (.variable fallbackVariable " 4320p ") := by
  have hread : ofVariables (onlyFallback " 4320p ") = .error (.fallback (.unknownName "4320p")) :=
    rfl
  refine ⟨rfl, rfl, rfl, ?_, hread, ?_⟩
  · rintro ⟨name, hname⟩
    obtain ⟨rfl, hknown⟩ := decidesFallback_iff.mp hname
    have hunknown : rawFallback (onlyFallback " 4320p ") ∉
        Catalog.platformModes.map ModeRow.name := by decide
    exact hunknown hknown
  · rw [hread]
    simp

end Settings

end VideoOutput
