import Mathlib.Data.List.Nodup
import VideoOutput.Proofs.WrittenSettings

/-!
# Readers of settings

What a reader of JSON texts makes of a text is not decided in this library, so it is assumed here. A
reader answers for a whole text, and it is told for the texts of some values what it makes of them as
the value of a field (`Reader.Reads`). `Reader.IsDocumented` is what its documentation promises of a
record whose members have defaults and which allows no others:

* what a field can hold is read from the way it is written;
* a record is visited member by member. A key that is not that of a field, or whose field was given
  already, is refused as bad data; a value that is refused is refused for its own reason; any other
  value is stored, and the visit goes on. A field that is never given keeps its default;
* a list is visited element by element, in the order in which the fields are declared.

Nothing is assumed of a text that is neither a record nor a list of values, nor of the order in which
its parts are looked at.

From this it follows what happens to whole records. Members in any order lead to the settings they
write (`visits_members`), and a member for which there is no room leads to a refusal wherever it
stands (`visits_surplus`): either it is refused itself, or it takes the place of a later one. Both
go by induction over the members with the fields not yet given and the settings so far.
-/

namespace VideoOutput.Settings

open Json

/-- A reader of JSON texts that fills settings. -/
structure Reader where
  /-- What is made of a text. -/
  read : String → Except Problem Settings
  /-- What is made of the text of a value for a field, where this is known. -/
  Reads : Field → List Char → Except Problem FieldValue → Prop

namespace Reader

/-- From given settings, with some fields not given yet, visiting the members of a record has an
outcome. -/
inductive Visits (reader : Reader) :
    List Field → Settings → List (String × List Char) → Except Problem Settings → Prop where
  /-- What was not given keeps what it has. -/
  | done {unseen : List Field} {s : Settings} : Visits reader unseen s [] (.ok s)
  /-- A key that no field has is refused, -/
  | unknown {unseen : List Field} {s : Settings} {key : String} {value : List Char}
      {rest : List (String × List Char)} (hkey : key ∉ Field.all.map Field.key) :
      Visits reader unseen s ((key, value) :: rest) (.error .data)
  /-- and so is that of a field that was given already. -/
  | repeated {unseen : List Field} {s : Settings} {f : Field} {value : List Char}
      {rest : List (String × List Char)} (hf : f ∉ unseen) :
      Visits reader unseen s ((f.key, value) :: rest) (.error .data)
  /-- A value can be refused, -/
  | refused {unseen : List Field} {s : Settings} {f : Field} {value : List Char}
      {rest : List (String × List Char)} {p : Problem} (hf : f ∈ unseen)
      (hvalue : reader.Reads f value (.error p)) :
      Visits reader unseen s ((f.key, value) :: rest) (.error p)
  /-- or it is stored. -/
  | stored {unseen : List Field} {s : Settings} {f : Field} {v : FieldValue} {value : List Char}
      {rest : List (String × List Char)} {outcome : Except Problem Settings} (hf : f ∈ unseen)
      (hvalue : reader.Reads f value (.ok v))
      (hrest : Visits reader (unseen.erase f) (f.store v s) rest outcome) :
      Visits reader unseen s ((f.key, value) :: rest) outcome

/-- From given settings, with some fields still to come, visiting the elements of a list leads to
settings. -/
inductive VisitsList (reader : Reader) :
    List Field → Settings → List (List Char) → Settings → Prop where
  /-- What has no element keeps what it has. -/
  | done {fields : List Field} {s : Settings} : VisitsList reader fields s [] s
  | stored {f : Field} {fields : List Field} {s s' : Settings} {v : FieldValue} {value : List Char}
      {rest : List (List Char)} (hvalue : reader.Reads f value (.ok v))
      (hrest : VisitsList reader fields (f.store v s) rest s') :
      VisitsList reader (f :: fields) s (value :: rest) s'

/-- What the documentation promises of a reader. -/
structure IsDocumented (reader : Reader) : Prop where
  /-- What a field can hold is read from the way it is written. -/
  value : ∀ {f : Field} {v : FieldValue} {text : List Char},
    f.Holds v → v.IsWritten text → reader.Reads f text (.ok v)
  /-- A record is visited from the defaults on, with all fields still to be given. -/
  record : ∀ {members : List (String × List Char)} {text : String}
    {outcome : Except Problem Settings},
    (∀ m ∈ members, IsJson m.2) → IsRecordOf members text.toList →
      reader.Visits Field.all {} members outcome → reader.read text = outcome
  /-- So is a list, with the fields in the order of their declaration. -/
  list : ∀ {elements : List (List Char)} {text : String} {s : Settings},
    (∀ e ∈ elements, IsJson e) → IsListOf elements text.toList →
      reader.VisitsList Field.all {} elements s → reader.read text = .ok s

variable {reader : Reader} {c s : Settings} {f : Field}

/-! ## Visits of written members -/

/-- **Written members**, in any order, are stored one after the other. -/
theorem visits_members (hreader : reader.IsDocumented) (hlimit : c.queueLimit < UInt64.size)
    {fields : List Field} {members : List (String × List Char)}
    (h : List.Forall₂ (WritesMember c) fields members) {unseen : List Field}
    (hnodup : fields.Nodup) (hsubset : fields ⊆ unseen) {more : List (String × List Char)}
    {outcome : Except Problem Settings}
    (hmore : reader.Visits (unseen.diff fields) (copyAll c fields s) more outcome) :
    reader.Visits unseen s (members ++ more) outcome := by
  induction h generalizing unseen s with
  | nil => exact hmore
  | @cons f member fields members hmember _ ih =>
    -- the first member takes its field away, but none of those that the others need
    obtain ⟨hf, hnodup⟩ := List.nodup_cons.mp hnodup
    have hsubset' : fields ⊆ unseen.erase f := by
      intro g hg
      have hne : g ≠ f := fun heq => hf (heq ▸ hg)
      exact (List.mem_erase_of_ne hne).mpr (hsubset (List.mem_cons_of_mem f hg))
    obtain ⟨key, value⟩ := member
    obtain ⟨rfl, hwritten⟩ : key = f.key ∧ (f.value c).IsWritten value := hmember
    refine .stored (hsubset List.mem_cons_self)
      (hreader.value (Field.holds_value f hlimit) hwritten) ?_
    rw [List.diff_cons] at hmore
    exact ih hnodup hsubset' hmore

/-- Members of which one gives a field again are refused, in whatever order they stand. -/
theorem visits_again (hreader : reader.IsDocumented) (hlimit : c.queueLimit < UInt64.size)
    {fields : List Field} {members : List (String × List Char)}
    (h : List.Forall₂ (WritesMember c) fields members) {unseen : List Field}
    (hnodup : fields.Nodup) (hsubset : ∀ g ∈ fields, g ≠ f → g ∈ unseen) (hf : f ∈ fields)
    (hgiven : f ∉ unseen) : reader.Visits unseen s members (.error .data) := by
  induction h generalizing unseen s with
  | nil => exact absurd hf (by simp)
  | @cons g member fields members hmember _ ih =>
    obtain ⟨hg, hnodup⟩ := List.nodup_cons.mp hnodup
    obtain ⟨key, value⟩ := member
    obtain ⟨rfl, hwritten⟩ : key = g.key ∧ (g.value c).IsWritten value := hmember
    by_cases hgf : g = f
    · -- this is the member with the field that was already given
      subst hgf
      exact .repeated hgiven
    · have hsubset' : ∀ g' ∈ fields, g' ≠ f → g' ∈ unseen.erase g := by
        intro g' hg' hne
        have hne' : g' ≠ g := fun heq => hg (heq ▸ hg')
        exact (List.mem_erase_of_ne hne').mpr (hsubset g' (List.mem_cons_of_mem g hg') hne)
      refine .stored (hsubset g List.mem_cons_self hgf)
        (hreader.value (Field.holds_value g hlimit) hwritten) ?_
      exact ih hnodup hsubset' ((List.mem_cons.mp hf).resolve_left (Ne.symm hgf))
        fun hmem => hgiven (List.mem_of_mem_erase hmem)

/-- A member that has no place between those of some fields and those of others, and the problem for
which it is refused. -/
inductive IsSurplus (reader : Reader) (before after : List Field) :
    String × List Char → Problem → Prop where
  /-- Its key is not that of a field, -/
  | unknown {key : String} {value : List Char} (hjson : IsJson value)
      (hkey : key ∉ Field.all.map Field.key) : IsSurplus reader before after (key, value) .data
  /-- or it repeats a member in front of it. -/
  | again {f : Field} {value : List Char} (hjson : IsJson value) (hf : f ∈ before) :
      IsSurplus reader before after (f.key, value) .data
  /-- If the other member with its key stands behind it, that one is the repetition, -/
  | ahead {f : Field} {value : List Char} {v : FieldValue} (hjson : IsJson value) (hf : f ∈ after)
      (hvalue : reader.Reads f value (.ok v)) : IsSurplus reader before after (f.key, value) .data
  /-- unless its own value is already refused. -/
  | misread {f : Field} {value : List Char} {p : Problem} (hjson : IsJson value) (hf : f ∈ after)
      (hvalue : reader.Reads f value (.error p)) : IsSurplus reader before after (f.key, value) p

theorem IsSurplus.isJson {before after : List Field} {extra : String × List Char} {p : Problem}
    (h : IsSurplus reader before after extra p) : IsJson extra.2 := by
  cases h <;> assumption

/-- **A surplus member** is refused wherever it stands. -/
theorem visits_surplus (hreader : reader.IsDocumented) (hlimit : c.queueLimit < UInt64.size)
    {before after : List Field} {members members' : List (String × List Char)}
    {extra : String × List Char} {p : Problem}
    (hbefore : List.Forall₂ (WritesMember c) before members)
    (hafter : List.Forall₂ (WritesMember c) after members')
    (hnodup : (before ++ after).Nodup) (h : IsSurplus reader before after extra p) :
    reader.Visits Field.all s (members ++ extra :: members') (.error p) := by
  obtain ⟨hnodup, hnodup', hdisjoint⟩ := List.nodup_append.mp hnodup
  have hunseen : ∀ f, f ∈ Field.all.diff before ↔ f ∉ before := by
    intro f
    rw [List.Nodup.mem_sdiff_iff Field.nodup_all]
    exact and_iff_right (Field.mem_all f)
  refine visits_members hreader hlimit hbefore hnodup (fun f _ => Field.mem_all f) ?_
  cases h with
  | unknown _ hkey => exact .unknown hkey
  | again _ hf => exact .repeated fun hmem => (hunseen _).mp hmem hf
  | misread _ hf hvalue =>
    exact .refused ((hunseen _).mpr fun hmem => hdisjoint _ hmem _ hf rfl) hvalue
  | @ahead f value v _ hf hvalue =>
    refine .stored ((hunseen f).mpr fun hmem => hdisjoint f hmem f hf rfl) hvalue ?_
    -- the field is taken by now, and its member is still to come
    refine visits_again hreader hlimit hafter hnodup' ?_ hf ?_
    · intro g hg hne
      refine (List.mem_erase_of_ne hne).mpr ((hunseen g).mpr ?_)
      exact fun hmem => hdisjoint g hmem g hg rfl
    · exact fun hmem => ((List.Nodup.diff Field.nodup_all).mem_erase_iff.mp hmem).1 rfl

/-- **Written elements** are stored one after the other. -/
theorem visitsList_elements (hreader : reader.IsDocumented) (hlimit : c.queueLimit < UInt64.size)
    {fields : List Field} {elements : List (List Char)}
    (h : List.Forall₂ (WritesElement c) fields elements) (others : List Field) :
    reader.VisitsList (fields ++ others) s elements (copyAll c fields s) := by
  induction h generalizing s with
  | nil => exact .done
  | @cons f element fields elements helement _ ih =>
    exact .stored (hreader.value (Field.holds_value f hlimit) helement) ih

/-! ## What is read from a text -/

/-- Written settings are judged as they are, in a record -/
theorem ofText_record (hreader : reader.IsDocumented) (hlimit : c.queueLimit < UInt64.size)
    {fields : List Field} {members : List (String × List Char)} {text : String}
    (hchoice : IsChoice c fields) (hmembers : List.Forall₂ (WritesMember c) fields members)
    (h : IsRecordOf members text.toList) : ofText reader.read text = c.check := by
  have hvisits : reader.Visits Field.all {} (members ++ []) (.ok (copyAll c fields {})) :=
    visits_members hreader hlimit hmembers hchoice.nodup (fun f _ => Field.mem_all f) .done
  rw [List.append_nil, hchoice.copyAll_eq] at hvisits
  rw [ofText, hreader.record (isJson_of_writesMember hmembers) h hvisits]

/-- and in a list. -/
theorem ofText_list (hreader : reader.IsDocumented) (hlimit : c.queueLimit < UInt64.size)
    {fields : List Field} {elements : List (List Char)} {text : String}
    (hchoice : IsChoice c fields) (hfirst : fields <+: Field.all)
    (helements : List.Forall₂ (WritesElement c) fields elements)
    (h : IsListOf elements text.toList) : ofText reader.read text = c.check := by
  obtain ⟨others, hall⟩ := hfirst
  have hvisits : reader.VisitsList (fields ++ others) {} elements (copyAll c fields {}) :=
    visitsList_elements hreader hlimit helements others
  rw [hall, hchoice.copyAll_eq] at hvisits
  rw [ofText, hreader.list (isJson_of_writesElement helements) h hvisits]

/-- A record with a surplus member is refused for the problem of that member. -/
theorem ofText_surplus (hreader : reader.IsDocumented) (hlimit : c.queueLimit < UInt64.size)
    {before after : List Field} {members members' : List (String × List Char)}
    {extra : String × List Char} {text : String} {p : Problem} (hnodup : (before ++ after).Nodup)
    (hbefore : List.Forall₂ (WritesMember c) before members)
    (hafter : List.Forall₂ (WritesMember c) after members')
    (hextra : IsSurplus reader before after extra p)
    (h : IsRecordOf (members ++ extra :: members') text.toList) :
    ofText reader.read text = .error (.json p) := by
  have hjson : ∀ m ∈ members ++ extra :: members', IsJson m.2 := by
    intro m hm
    rcases List.mem_append.mp hm with hm | hm
    · exact isJson_of_writesMember hbefore m hm
    · rcases List.mem_cons.mp hm with rfl | hm
      · exact hextra.isJson
      · exact isJson_of_writesMember hafter m hm
  rw [ofText, hreader.record hjson h
    (visits_surplus hreader hlimit hbefore hafter hnodup hextra)]

/-- The check changes nothing. -/
theorem eq_of_check (h : s.check = .ok c) : s = c := by
  unfold check at h
  split at h
  next => exact absurd h (by simp)
  next =>
    split at h
    next => exact absurd h (by simp)
    next => exact Except.ok.inj h

/-- What is read passes the check. -/
theorem check_of_ofText {read : String → Except Problem Settings} {text : String}
    (h : ofText read text = .ok c) : c.check = .ok c := by
  unfold ofText at h
  split at h
  next => exact absurd h (by simp)
  next settings _ =>
    obtain rfl := eq_of_check h
    exact h

end Reader

end VideoOutput.Settings
