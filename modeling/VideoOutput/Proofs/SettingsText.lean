import VideoOutput.Proofs.SettingsReader

/-!
# Settings texts

The reader that the program is run with does what is documented (`isDocumented_jsonReader`), and
hence what is promised of every such reader: settings that pass the check are read back from every
way to write them, and a record with a member too many is refused (`isReadBack_of_check`).

The text of a value is read into its field whatever the settings were before and whatever follows it,
unless this continues a number (`readField_of_isWritten`). Reading goes from member to member, with
the fields that were not given yet and the settings as they are so far. So it does what a visit of
the members does, step by step (`readMembers_of_visits`): the key of a field not given yet lets its
value be read (`readMembers_key`), and every other key is refused before its value is looked at
(`readMembers_refused`). Lists are read likewise (`readElements_of_visits`).

Of two members with the same key it is the second that is refused as a repetition. The value of the
first is read before that, and it may be refused for a reason of its own
(`malformed_before_repetition_is_seen`).
-/

namespace VideoOutput.Settings

open Json

variable {c s : Settings} {f : Field} {v : FieldValue} {blank rest : List Char}

/-! ## Reading a value -/

/-- A number is read back as long as it is within its limit. -/
theorem readCount_decimal {n limit : Nat} (hlimit : n ≤ limit) (hn : n < wholeBound)
    {rest : List Char} (h : EndsNumber rest) :
    readCount limit (decimal n ++ rest) = .ok (n, rest) := by
  have hread := readNumber_decimal hn h
  obtain ⟨c, cs, hcs, hdigit⟩ := exists_decimal_append_eq_cons n rest
  rw [hcs] at hread ⊢
  unfold readCount
  rw [if_pos (show startsNumber (c :: cs) = true by simp [startsNumber, hdigit]), hread]
  exact if_pos hlimit

theorem readText_of_isString {text : String} {written : List Char} (h : IsString text written)
    (rest : List Char) : readText (written ++ rest) = .ok (text.toList, rest) := by
  obtain ⟨body, hbody, hread⟩ := exists_of_isString h rest
  rw [hbody]
  exact hread

theorem readPolicy_of_isString {policy : Edid.ChecksumPolicy} {text : List Char}
    (h : IsString policy.text text) (rest : List Char) :
    readPolicy (text ++ rest) = .ok (policy, rest) := by
  obtain ⟨body, hbody, hread⟩ := exists_of_isString h rest
  rw [hbody]
  show readPolicyName ('"' :: body) = _
  simp only [readPolicyName, hread]
  cases policy with
  | strict => rfl
  | lenient => rfl

/-- Spaces in front of a value do not count. -/
theorem readField_append {blank : List Char} (h : IsBlank blank) (s : Settings) (f : Field)
    (cs : List Char) : readField s f (blank ++ cs) = readField s f cs := by
  unfold readField
  rw [skipSpace_append h]

/-- **A written value** is read into its field. -/
theorem readField_of_isWritten (hv : f.Holds v) {text : List Char} (h : v.IsWritten text)
    (s : Settings) {rest : List Char} (hrest : EndsNumber rest) :
    readField s f (text ++ rest) = .ok (f.store v s, rest) := by
  have hskip : skipSpace (text ++ rest) = text ++ rest := by
    obtain ⟨d, ds, rfl, hspace, -⟩ := h.isJson.exists_cons
    exact skipSpace_cons hspace _
  unfold readField
  rw [hskip]
  cases v with
  | policy policy =>
    obtain rfl : f = .checksum := hv
    dsimp only
    rw [readPolicy_of_isString h]
    rfl
  | text t =>
    obtain rfl : f = .fallback := hv
    dsimp only
    rw [readText_of_isString h]
    simp [Except.map, Field.store]
  | number n =>
    obtain rfl : text = decimal n := h
    rcases hv with ⟨rfl | rfl, hn⟩ | ⟨rfl, hn⟩
    -- the counts of connectors are bytes
    · dsimp only
      rw [readCount_decimal (Nat.le_of_lt_succ hn) (Nat.lt_trans hn (by decide)) hrest]
      rfl
    · dsimp only
      rw [readCount_decimal (Nat.le_of_lt_succ hn) (Nat.lt_trans hn (by decide)) hrest]
      rfl
    · have hbound : n < wholeBound := hn
      dsimp only
      rw [readCount_decimal (Nat.le_sub_one_of_lt hbound) hbound hrest]
      rfl

/-- The reader that the program is run with. What it makes of a value is known if this does not
depend on the settings so far or on what follows. -/
def jsonReader : Reader where
  read := parse
  Reads f text outcome :=
    ∀ (s : Settings) (rest : List Char), EndsNumber rest →
      readField s f (text ++ rest) = outcome.map fun v => (f.store v s, rest)

/-- A number is not even looked at as a policy. -/
theorem reads_checksum_decimal (n : Nat) :
    jsonReader.Reads .checksum (decimal n) (.error .malformed) := by
  intro s rest _
  obtain ⟨d, ds, hds, hdigit⟩ := exists_decimal_append_eq_cons n rest
  have hread : readPolicy (d :: ds) = .error .malformed := by
    unfold readPolicy
    split
    next heq => exact absurd (List.cons.inj heq).1 (ne_of_isDigit hdigit rfl)
    next =>
      unfold readPolicyName
      split
      next heq => exact absurd heq (by simp)
      next heq => exact absurd (List.cons.inj heq).1 (ne_of_isDigit hdigit rfl)
      next => rfl
  unfold readField
  rw [hds, skipSpace_cons (isSpace_of_isDigit hdigit)]
  dsimp only
  rw [hread]
  rfl

/-! ## Reading members -/

theorem readKey_append (h : IsBlank blank) (isFirst : Bool) (cs : List Char) :
    readKey isFirst (blank ++ cs) = readKey isFirst cs := by
  unfold readKey
  rw [skipSpace_append h]

/-- Spaces in front of a member, a comma or the end do not count. -/
theorem readMembers_append (h : IsBlank blank) (unseen : List Field) (isFirst : Bool)
    (s : Settings) (cs : List Char) :
    readMembers unseen isFirst s (blank ++ cs) = readMembers unseen isFirst s cs := by
  rw [readMembers.eq_def, readMembers.eq_def unseen isFirst s cs, readKey_append h]

/-- Every key but the first has a comma in front. -/
theorem readKey_comma (h : IsBlank blank) {body key : List Char}
    (hread : readString body = .ok (key, rest)) :
    readKey false (',' :: (blank ++ '"' :: body)) = .ok (some key, rest) := by
  have hcomma : skipSpace (',' :: (blank ++ '"' :: body)) = ',' :: (blank ++ '"' :: body) :=
    skipSpace_cons (by decide) _
  have hquote : skipSpace (blank ++ '"' :: body) = '"' :: body :=
    skipSpace_append_cons h (by decide) body
  simp only [readKey, hcomma, hquote, hread]
  rfl

/-- The first member is read like one behind a comma. -/
theorem readMembers_first {key : String} {value member : List Char} (h : IsMember key value member)
    (unseen : List Field) (s : Settings) (rest : List Char) :
    readMembers unseen true s (member ++ rest) =
      readMembers unseen false s (',' :: (member ++ rest)) := by
  obtain ⟨blank, blank', paddedValue, body, hblank, -, -, hmember, hread⟩ :=
    exists_of_isMember h rest
  have hfirst : readKey true (blank ++ '"' :: body) =
      .ok (some key.toList, blank' ++ ':' :: (paddedValue ++ rest)) := by
    unfold readKey
    rw [skipSpace_append_cons hblank (by decide)]
    show (readString body).map _ = _
    rw [hread]
    rfl
  rw [hmember, readMembers.eq_def, hfirst, readMembers.eq_def unseen false,
    readKey_comma hblank hread]

/-- The key of a field is looked up among those of the fields not given yet. -/
theorem find?_key {unseen : List Field} (h : f ∈ unseen) :
    (unseen.find? fun field => field.key.toList == f.key.toList) = some f := by
  cases hfind : unseen.find? fun field => field.key.toList == f.key.toList with
  | none => exact absurd (List.find?_eq_none.mp hfind f h) (by simp)
  | some g =>
    have hkey := List.find?_some hfind
    rw [Field.key_injective (String.toList_inj.mp (beq_iff_eq.mp hkey))]

theorem readMembers_end (unseen : List Field) (isFirst : Bool) (s : Settings) (rest : List Char) :
    readMembers unseen isFirst s ('}' :: rest) = .ok (s, rest) := by
  have hkey : readKey isFirst ('}' :: rest) = .ok (none, rest) := by
    unfold readKey
    rw [skipSpace_cons (by decide)]
    cases isFirst with
    | true => rfl
    | false => rfl
  rw [readMembers.eq_def, hkey]

/-- **The key of a field not given yet** lets its value be read. -/
theorem readMembers_key {unseen : List Field} (hf : f ∈ unseen) {value member : List Char}
    (h : IsMember f.key value member) (s : Settings) (rest : List Char) :
    ∃ after, IsBlank after ∧
      readMembers unseen false s (',' :: (member ++ rest)) =
        (readField s f (value ++ (after ++ rest))).bind fun (s, rest) =>
          readMembers (unseen.erase f) false s rest := by
  obtain ⟨blank, blank', _, body, hblank, hblank', ⟨before, after, hbefore, hafter, rfl⟩, hmember,
    hread⟩ := exists_of_isMember h rest
  have hcolon : readColon (blank' ++ ':' :: (before ++ (value ++ after) ++ rest)) =
      .ok (before ++ (value ++ after) ++ rest) := by
    unfold readColon
    rw [skipSpace_append_cons hblank' (by decide)]
    rfl
  have hvalue : readField s f (value ++ (after ++ rest)) =
      readField s f (before ++ (value ++ after) ++ rest) := by
    rw [List.append_assoc, readField_append hbefore, List.append_assoc]
  refine ⟨after, hafter, ?_⟩
  rw [hvalue, hmember, readMembers.eq_def, readKey_comma hblank hread]
  dsimp only
  split
  next hnone => exact absurd ((find?_key hf).symm.trans hnone) (by simp)
  next field hfield =>
    obtain rfl := Option.some.inj ((find?_key hf).symm.trans hfield)
    rw [hcolon]
    dsimp only
    cases readField s f (before ++ (value ++ after) ++ rest) with
    | error p => rfl
    | ok read => rfl

/-- **Any other key** is refused, whatever its value and whatever stands behind it. -/
theorem readMembers_refused {unseen : List Field} {key : String} (hkey : key ∉ unseen.map Field.key)
    {value member : List Char} (h : IsMember key value member) (s : Settings) (rest : List Char) :
    readMembers unseen false s (',' :: (member ++ rest)) = .error .data := by
  obtain ⟨blank, _, _, body, hblank, -, -, hmember, hread⟩ := exists_of_isMember h rest
  rw [hmember, readMembers.eq_def, readKey_comma hblank hread]
  dsimp only
  split
  next => rfl
  next field hfield =>
    have hmem := List.mem_of_find?_eq_some hfield
    have heq := List.find?_some hfield
    rw [beq_iff_eq, String.toList_inj] at heq
    exact absurd (List.mem_map.mpr ⟨field, hmem, heq⟩) hkey

/-- **Members are read as they are visited.** -/
theorem readMembers_of_visits {unseen : List Field} {members : List (String × List Char)}
    {outcome : Except Problem Settings} (h : jsonReader.Visits unseen s members outcome)
    {written : List (List Char)}
    (hwritten : List.Forall₂ (fun m w => IsMember m.1 m.2 w) members written) (after : List Char) :
    readMembers unseen false s (withCommas written ++ '}' :: after) =
      outcome.map fun s => (s, after) := by
  -- one case for each way in which a visit goes on or ends
  induction h generalizing written with
  | done =>
    cases hwritten
    exact readMembers_end _ _ _ _
  | unknown hkey =>
    obtain _ | ⟨hmember, -⟩ := hwritten
    rw [withCommas_cons_append]
    exact readMembers_refused (fun hmem => hkey (List.map_subset _ (fun g _ => g.mem_all) hmem))
      hmember _ _
  | repeated hf =>
    obtain _ | ⟨hmember, -⟩ := hwritten
    rw [withCommas_cons_append]
    refine readMembers_refused (fun hmem => hf ?_) hmember _ _
    exact (List.mem_map_of_injective Field.key_injective).mp hmem
  | refused hf hvalue =>
    obtain _ | ⟨hmember, -⟩ := hwritten
    rw [withCommas_cons_append]
    obtain ⟨blank, hblank, hread⟩ := readMembers_key hf hmember _ _
    rw [hread, hvalue _ _ (endsNumber_append hblank (endsNumber_withCommas _ (endsNumber_cons (by decide) _)))]
    rfl
  | stored hf hvalue _ ih =>
    obtain _ | ⟨hmember, hrest⟩ := hwritten
    rw [withCommas_cons_append]
    obtain ⟨blank, hblank, hread⟩ := readMembers_key hf hmember _ _
    rw [hread, hvalue _ _ (endsNumber_append hblank (endsNumber_withCommas _ (endsNumber_cons (by decide) _))),
      ← ih hrest]
    exact readMembers_append hblank _ _ _ _

/-! ## Reading a list -/

/-- Spaces in front of an element do not count either. -/
theorem readElementStart_append (h : IsBlank blank) (isFirst : Bool) (cs : List Char) :
    readElementStart isFirst (blank ++ cs) = readElementStart isFirst cs := by
  unfold readElementStart
  rw [skipSpace_append h]

/-- Spaces in front of an element, a comma or the end do not count. -/
theorem readElements_append (h : IsBlank blank) (fields : List Field) (isFirst : Bool)
    (s : Settings) (cs : List Char) :
    readElements fields isFirst s (blank ++ cs) = readElements fields isFirst s cs := by
  cases fields with
  | nil =>
    unfold readElements readListEnd
    rw [skipSpace_append h]
  | cons f fields =>
    unfold readElements
    rw [readElementStart_append h]

/-- A value can start a list or stand behind a comma. -/
theorem readElementStart_value (h : IsBlank blank) {d : Char} (hspace : isSpace d = false)
    (hend : d ≠ ']') (ds : List Char) :
    readElementStart true (blank ++ d :: ds) = .ok (true, d :: ds) ∧
      readElementStart false (',' :: (blank ++ d :: ds)) = .ok (true, d :: ds) := by
  have hskip : skipSpace (blank ++ d :: ds) = d :: ds := skipSpace_append_cons h hspace ds
  constructor
  · unfold readElementStart
    rw [hskip]
    split
    next heq => exact absurd (List.cons.inj heq).1 hend
    next heq => exact absurd heq (by simp)
    next hfalse => exact absurd hfalse (by simp)
    next hfalse _ _ _ => exact absurd hfalse (by simp)
    next => rfl
  · unfold readElementStart
    rw [skipSpace_cons (by decide)]
    split
    next heq => exact absurd (List.cons.inj heq).1 (by decide)
    next heq => exact absurd heq (by simp)
    next heq _ =>
      rw [← (List.cons.inj heq).2, hskip]
      split
      next heq => exact absurd heq (by simp)
      next heq => exact absurd (List.cons.inj heq).1 hend
      next => rfl
    next hother => exact absurd rfl (hother _)
    next hfalse _ _ => exact absurd hfalse (by simp)

/-- An element is read into the next field, be it the first one or behind a comma. -/
theorem readElements_element {value padded : List Char} (hjson : IsJson value)
    (hvalue : jsonReader.Reads f value (.ok v)) (hpadded : IsPadded value padded)
    (fields : List Field) (s : Settings) (hrest : EndsNumber rest) :
    readElements (f :: fields) true s (padded ++ rest) =
        readElements fields false (f.store v s) rest ∧
      readElements (f :: fields) false s (',' :: (padded ++ rest)) =
        readElements fields false (f.store v s) rest := by
  obtain ⟨before, after, hbefore, hafter, rfl⟩ := hpadded
  have hread := hvalue s (after ++ rest) (endsNumber_append hafter hrest)
  obtain ⟨d, ds, rfl, hspace, hend⟩ := hjson.exists_cons
  obtain ⟨hfirst, hnext⟩ := readElementStart_value hbefore hspace hend (ds ++ (after ++ rest))
  have htext : before ++ (d :: ds ++ after) ++ rest = before ++ d :: (ds ++ (after ++ rest)) := by
    simp
  rw [List.cons_append] at hread
  rw [htext]
  constructor
  · rw [readElements, hfirst]
    dsimp only
    rw [hread]
    exact readElements_append hafter fields false (f.store v s) rest
  · rw [readElements, hnext]
    dsimp only
    rw [hread]
    exact readElements_append hafter fields false (f.store v s) rest

theorem readElements_end (fields : List Field) (isFirst : Bool) (s : Settings) (rest : List Char) :
    readElements fields isFirst s (']' :: rest) = .ok (s, rest) := by
  have hskip : skipSpace (']' :: rest) = ']' :: rest := skipSpace_cons (by decide) rest
  cases fields with
  | nil =>
    unfold readElements readListEnd
    rw [hskip]
    rfl
  | cons f fields =>
    have hstart : readElementStart isFirst (']' :: rest) = .ok (false, rest) := by
      unfold readElementStart
      rw [hskip]
      cases isFirst with
      | true => rfl
      | false => rfl
    rw [readElements, hstart]

/-- **Elements are read as they are visited.** -/
theorem readElements_of_visits {fields : List Field} {values : List (List Char)} {s' : Settings}
    (h : jsonReader.VisitsList fields s values s') (hjson : ∀ value ∈ values, IsJson value)
    {padded : List (List Char)} (hpadded : List.Forall₂ IsPadded values padded)
    (after : List Char) :
    readElements fields false s (withCommas padded ++ ']' :: after) = .ok (s', after) := by
  induction h generalizing padded with
  | done =>
    cases hpadded
    exact readElements_end _ _ _ _
  | stored hvalue _ ih =>
    obtain _ | ⟨hp, hrest⟩ := hpadded
    obtain ⟨hjson, hjsons⟩ := List.forall_mem_cons.mp hjson
    rw [withCommas_cons_append,
      (readElements_element hjson hvalue hp _ _ (endsNumber_withCommas _ (endsNumber_cons (by decide) _))).2,
      ih hjsons hrest]

/-- A record is read member by member. -/
theorem readSettings_record {members : List (String × List Char)} {written : List (List Char)}
    {text : List Char} (hwritten : List.Forall₂ (fun m w => IsMember m.1 m.2 w) members written)
    (h : IsRecord written text) :
    ∃ after, IsBlank after ∧ readSettings text =
      readMembers Field.all false {} (withCommas written ++ '}' :: after) := by
  obtain ⟨inner, hinner, before, after, hbefore, hafter, rfl⟩ := h
  refine ⟨after, hafter, ?_⟩
  unfold readSettings
  rw [List.cons_append, skipSpace_append_cons hbefore (by decide)]
  show readMembers Field.all true {} (inner ++ ['}'] ++ after) = _
  rw [List.append_assoc, List.singleton_append]
  cases hinner with
  | none hblank =>
    rw [readMembers_append hblank, readMembers_end]
    exact (readMembers_end _ _ _ _).symm
  | some item items =>
    obtain _ | ⟨hmember, -⟩ := hwritten
    rw [intercalate_eq, List.append_assoc, readMembers_first hmember, withCommas_cons_append]

/-- A list is read element by element. -/
theorem readSettings_list {values : List (List Char)} {text : List Char} {s : Settings}
    (hjson : ∀ value ∈ values, IsJson value) (h : IsListOf values text)
    (hvisits : jsonReader.VisitsList Field.all {} values s) :
    ∃ after, IsBlank after ∧ readSettings text = .ok (s, after) := by
  obtain ⟨padded, hpadded, inner, hinner, before, after, hbefore, hafter, rfl⟩ := h
  refine ⟨after, hafter, ?_⟩
  unfold readSettings
  rw [List.cons_append, skipSpace_append_cons hbefore (by decide)]
  show readElements Field.all true {} (inner ++ [']'] ++ after) = _
  rw [List.append_assoc, List.singleton_append]
  cases hpadded with
  | nil =>
    cases hvisits
    cases hinner with
    | none hblank =>
      rw [readElements_append hblank]
      exact readElements_end _ _ _ _
  | cons hp hrest =>
    obtain ⟨hjson, hjsons⟩ := List.forall_mem_cons.mp hjson
    cases hinner with
    | some item items =>
      -- the first element has no comma in front of it, the others are read by the run lemma
      generalize hall : Field.all = fields at hvisits
      cases hvisits with
      | stored hvalue hvisits =>
        rw [intercalate_eq, List.append_assoc,
          (readElements_element hjson hvalue hp _ _
            (endsNumber_withCommas _ (endsNumber_cons (by decide) _))).1]
        exact readElements_of_visits hvisits hjsons hrest after

/-! ## The whole text -/

/-- What is read with nothing but spaces behind it is the result. -/
theorem parse_of_ok {text : String} (h : IsBlank blank)
    (hread : readSettings text.toList = .ok (s, blank)) : parse text = .ok s := by
  unfold parse
  rw [hread]
  exact if_pos (skipSpace_blank h)

/-- A problem with what is read is the result, whatever is behind it. -/
theorem parse_of_error {text : String} {p : Problem}
    (hread : readSettings text.toList = .error p) : parse text = .error p := by
  unfold parse
  rw [hread]

/-- **The reader that the program is run with does what is documented.** -/
theorem isDocumented_jsonReader : jsonReader.IsDocumented where
  value hv h s rest hrest := readField_of_isWritten hv h s hrest
  record := by
    intro members text outcome _ ⟨written, hwritten, hrecord⟩ hvisits
    obtain ⟨after, hafter, hread⟩ := readSettings_record hwritten hrecord
    rw [readMembers_of_visits hvisits hwritten after] at hread
    cases outcome with
    | error p => exact parse_of_error hread
    | ok s => exact parse_of_ok hafter hread
  list := by
    intro values text s hjson hlist hvisits
    obtain ⟨after, hafter, hread⟩ := readSettings_list hjson hlist hvisits
    exact parse_of_ok hafter hread

/-! ## Written settings are read back -/

/-- How a reader reads settings from what is written. -/
structure IsReadBack (reader : Reader) (c : Settings) : Prop where
  /-- A record may have members for the fields of any choice, in any order. -/
  record : ∀ {fields : List Field} {members : List (String × List Char)} {text : String},
    IsChoice c fields → List.Forall₂ (WritesMember c) fields members →
      IsRecordOf members text.toList → ofText reader.read text = .ok c
  /-- A list has the values of the first fields. -/
  list : ∀ {fields : List Field} {elements : List (List Char)} {text : String},
    IsChoice c fields → fields <+: Field.all → List.Forall₂ (WritesElement c) fields elements →
      IsListOf elements text.toList → ofText reader.read text = .ok c
  /-- Nowhere in a record is there room for a member with another key or with the same key again. -/
  surplus : ∀ {before after : List Field} {members members' : List (String × List Char)}
    {extra : String × List Char} {text : String} {p : Problem},
    IsChoice c (before ++ after) → List.Forall₂ (WritesMember c) before members →
      List.Forall₂ (WritesMember c) after members' → reader.IsSurplus before after extra p →
      IsRecordOf (members ++ extra :: members') text.toList →
        ofText reader.read text = .error (.json p)

/-- **Settings that pass the check are read back from every way to write them**, by every reader that
does what is documented, and nothing is read that does not pass the check. -/
theorem isReadBack_of_check {reader : Reader} (hreader : reader.IsDocumented)
    (h : c.check = .ok c) (hlimit : c.queueLimit < UInt64.size) :
    IsReadBack reader c ∧
      ∀ (text : String) (c' : Settings), ofText reader.read text = .ok c' → c'.check = .ok c' := by
  refine ⟨⟨?_, ?_, ?_⟩, fun _ _ => Reader.check_of_ofText⟩
  · intro fields members text hchoice hmembers hrecord
    exact (Reader.ofText_record hreader hlimit hchoice hmembers hrecord).trans h
  · intro fields elements text hchoice hfirst helements hlist
    exact (Reader.ofText_list hreader hlimit hchoice hfirst helements hlist).trans h
  · intro before after members members' extra text p hchoice hbefore hafter hextra hrecord
    exact Reader.ofText_surplus hreader hlimit hchoice.nodup hbefore hafter hextra hrecord

/-- Settings with two HDMI connectors, as a record, as a list, and with a count of three in front of
the other one. -/
theorem isReadBack_with_two_hdmi_connectors :
    jsonReader.IsDocumented ∧
      Settings.check { fallback := "1080p60", hdmiCount := 2 } =
        .ok { fallback := "1080p60", hdmiCount := 2 } ∧
      ofText jsonReader.read "\x7b\"hdmi_ports\": 2,\"fallback_resolution\":\"1080p60\"\x7d" =
        .ok { fallback := "1080p60", hdmiCount := 2 } ∧
      ofText jsonReader.read "[\"strict\",\"1080p60\", 2]" =
        .ok { fallback := "1080p60", hdmiCount := 2 } ∧
      ofText jsonReader.read
          "\x7b\"hdmi_ports\":3,\"hdmi_ports\": 2,\"fallback_resolution\":\"1080p60\"\x7d" =
        .error (.json .data) := by
  have hcheck : Settings.check { fallback := "1080p60", hdmiCount := 2 } =
      .ok { fallback := "1080p60", hdmiCount := 2 } := rfl
  obtain ⟨hread, -⟩ := isReadBack_of_check isDocumented_jsonReader hcheck (by decide)
  have hblank : IsBlank [] := by simp [IsBlank]
  have hspace : IsBlank [' '] := by simp [IsBlank]
  have hpolicy : IsString "strict" "\"strict\"".toList := isString_of_plain rfl
  have hfallback : IsString "1080p60" "\"1080p60\"".toList := isString_of_plain rfl
  have hnumber : IsPadded ['2'] [' ', '2'] := ⟨[' '], [], hspace, hblank, rfl⟩
  have hhdmi : IsMember "hdmi_ports" ['2'] "\"hdmi_ports\": 2".toList :=
    Field.isMember_plainMember .hdmiCount hnumber
  have hname : IsMember "fallback_resolution" "\"1080p60\"".toList
      "\"fallback_resolution\":\"1080p60\"".toList :=
    Field.isMember_plainMember .fallback (isPadded_self _)
  have hmembers : List.Forall₂ (WritesMember { fallback := "1080p60", hdmiCount := 2 })
      [.hdmiCount, .fallback] [("hdmi_ports", ['2']), ("fallback_resolution", _)] :=
    .cons ⟨rfl, rfl⟩ (.cons ⟨rfl, hfallback⟩ .nil)
  have hextra : IsMember "hdmi_ports" ['3'] "\"hdmi_ports\":3".toList :=
    Field.isMember_plainMember .hdmiCount (isPadded_self _)
  have hthree : jsonReader.IsSurplus [] [.hdmiCount, .fallback] ("hdmi_ports", decimal 3) .data :=
    .ahead (.number (isNumber_decimal 3)) List.mem_cons_self
      (isDocumented_jsonReader.value (v := .number 3) (.inl ⟨.inl rfl, by decide⟩) rfl)
  have hrecord : IsChoice { fallback := "1080p60", hdmiCount := 2 }
      ([] ++ [.hdmiCount, .fallback]) := by decide
  have hlist : IsChoice { fallback := "1080p60", hdmiCount := 2 }
      [.checksum, .fallback, .hdmiCount] := by decide
  refine ⟨isDocumented_jsonReader, hcheck, ?_, ?_, ?_⟩
  · exact hread.record hrecord hmembers
      ⟨_, .cons hhdmi (.cons hname .nil), _, .some _ _, isPadded_self _⟩
  · exact hread.list hlist ⟨_, rfl⟩ (.cons hpolicy (.cons hfallback (.cons rfl .nil)))
      ⟨_, .cons (isPadded_self _) (.cons (isPadded_self _) (.cons hnumber .nil)), _, .some _ _,
        isPadded_self _⟩
  · exact hread.surplus hrecord .nil hmembers hthree
      ⟨_, .cons hextra (.cons hhdmi (.cons hname .nil)), _, .some _ _, isPadded_self _⟩

/-- Of two members with one key, the first can be refused for its value before the second is
seen. -/
theorem malformed_before_repetition_is_seen :
    jsonReader.IsDocumented ∧
      Settings.check { checksum := .lenient } = .ok { checksum := .lenient } ∧
      IsChoice { checksum := .lenient } [.checksum] ∧
      List.Forall₂ (WritesMember { checksum := .lenient }) [.checksum]
        [("checksum_policy", "\"lenient\"".toList)] ∧
      IsJson "1".toList ∧
      IsRecordOf [("checksum_policy", "1".toList), ("checksum_policy", "\"lenient\"".toList)]
        "\x7b\"checksum_policy\":1,\"checksum_policy\":\"lenient\"\x7d".toList ∧
      ofText jsonReader.read "\x7b\"checksum_policy\":1,\"checksum_policy\":\"lenient\"\x7d" =
        .error (.json .malformed) := by
  have hchoice : IsChoice { checksum := .lenient } [.checksum] := by decide
  have hlenient : IsString "lenient" "\"lenient\"".toList := isString_of_plain rfl
  have hmembers : List.Forall₂ (WritesMember { checksum := .lenient }) [.checksum]
      [("checksum_policy", "\"lenient\"".toList)] := .cons ⟨rfl, hlenient⟩ .nil
  have hone : IsJson "1".toList := .number (isNumber_decimal 1)
  have hsurplus : jsonReader.IsSurplus [] [.checksum] ("checksum_policy", "1".toList) .malformed :=
    .misread hone List.mem_cons_self (reads_checksum_decimal 1)
  have hrecord : IsRecordOf
      [("checksum_policy", "1".toList), ("checksum_policy", "\"lenient\"".toList)]
      "\x7b\"checksum_policy\":1,\"checksum_policy\":\"lenient\"\x7d".toList :=
    ⟨_, .cons (Field.isMember_plainMember .checksum (isPadded_self _))
      (.cons (Field.isMember_plainMember .checksum (isPadded_self _)) .nil), _, .some _ _,
      isPadded_self _⟩
  exact ⟨isDocumented_jsonReader, rfl, hchoice, hmembers, hone, hrecord,
    Reader.ofText_surplus isDocumented_jsonReader (by decide) hchoice.nodup .nil hmembers hsurplus
      hrecord⟩

end VideoOutput.Settings
