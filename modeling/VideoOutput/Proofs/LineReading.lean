import VideoOutput.Proofs.CommandLine
import VideoOutput.Proofs.Numerals

/-!
# The parser that the program is run with

The parser of `Cli.Invocation` reads word by word, and it does what is documented
(`isDocumented_lineParser`).

What one word does to a level is said once, by `Level.Takes`: it is a value that is awaited, a flag,
an option with or without its value, or an argument. `Scan.step_iff_root` and `Scan.step_iff_command`
say that a step of the reading is such a word, or a word that calls a command. All else follows from
this in two directions.

* A level that has read some words (`Level.HasRead`) has the values of the items that these words
  write, up to an option that still waits for its value. Every word that is taken keeps this up
  (`HasRead.takes`), and so the words of an accepted line write items (`Scan.hasRead_run`).
* The words of an item are taken one after the other, and then the level has its value
  (`Level.exists_takes`); so the words that write items are read to their end (`Scan.run_of_isLine`).

A separate value is judged only when its level goes on. Both directions therefore speak of the values
after everything pending is judged (`Level.settle`).

What was given is a record that has a part for each topic, and an item changes the part that it is
about and looks at no other (`about_take`, `about_take_of_ne`). So a list of items is taken if and
only if the items about each topic are, for each part by itself (`givenBy_iff`).
-/

namespace VideoOutput.Cli

open Text (bind_eq_ok_iff)

variable {name : CommandName} {options : List Opt} {hasArgument : Bool} {items : List Item}
  {item : Item} {topic : Topic} {s : String} {words : List String}

/-! ## Values by topic -/

namespace Given

variable {given given' : Given}

/-- Take in an item. -/
def take (name : CommandName) (given : Given) : Item → Option Given
  | .flag o => given.put "" o
  | .option o text => given.put text o
  | .argument text => given.putArgument text name

/-- The part of the values that is about something. -/
def about (given : Given) : Topic → Given
  | .config => { config := given.config }
  | .logLevel => { logLevel := given.logLevel }
  | .lenient => { lenient := given.lenient }
  | .command => { given with config := none, logLevel := none, lenient := false }

/-- The parts make the whole. -/
theorem ext_about (h : ∀ topic, given.about topic = given'.about topic) : given = given' := by
  have hconfig := congrArg Given.config (h .config)
  have hlogLevel := congrArg Given.logLevel (h .logLevel)
  have hlenient := congrArg Given.lenient (h .lenient)
  have hcommand := h .command
  cases given
  cases given'
  simp only [about, Given.mk.injEq] at *
  tauto

/-- Putting a value concerns the topic of its option only. -/
theorem about_put (text : String) (o : Opt) :
    (given.put text o).map (fun given => given.about o.topic) =
      (given.about o.topic).put text o := by
  cases o with
  | _ =>
    simp only [put, Option.map_map]
    rfl

theorem about_put_of_ne {o : Opt} (h : o.topic ≠ topic) {text : String}
    (hput : given.put text o = some given') : given'.about topic = given.about topic := by
  cases o with
  | _ =>
    obtain ⟨_, -, rfl⟩ := Option.map_eq_some_iff.mp hput
    cases topic with
    | config | logLevel | lenient | command => first | rfl | exact absurd rfl h

theorem about_putArgument (text : String) (name : CommandName) :
    (given.putArgument text name).map (fun given => given.about .command) =
      (given.about .command).putArgument text name := by
  cases name with
  | edid | vic =>
    simp only [putArgument, Option.map_map]
    rfl
  | _ => rfl

theorem about_putArgument_of_ne (h : Topic.command ≠ topic) {text : String}
    (hput : given.putArgument text name = some given') : given'.about topic = given.about topic := by
  cases name with
  | edid | vic =>
    obtain ⟨_, -, rfl⟩ := Option.map_eq_some_iff.mp hput
    cases topic with
    | config | logLevel | lenient => rfl
    | command => exact absurd rfl h
  | _ => exact nomatch hput

/-- An item is taken by the part that it is about, -/
theorem about_take (name : CommandName) (item : Item) :
    (given.take name item).map (fun given => given.about item.topic) =
      (given.about item.topic).take name item := by
  cases item with
  | flag o => exact about_put "" o
  | option o text => exact about_put text o
  | argument text => exact about_putArgument text name

/-- and leaves all others as they are. -/
theorem about_take_of_ne (h : item.topic ≠ topic) (htake : given.take name item = some given') :
    given'.about topic = given.about topic := by
  cases item with
  | flag o | option o text => exact about_put_of_ne h htake
  | argument text => exact about_putArgument_of_ne h htake

/-- No command depends on what is about something else. -/
theorem command?_about (given : Given) (name : CommandName) :
    (given.about .command).command? name = given.command? name := by
  cases name with
  | _ => rfl

/-- **Items are taken if and only if those about each topic are.** -/
theorem foldlM_take_iff :
    items.foldlM (take name) given = some given' ↔
      ∀ topic, (Cli.about topic items).foldlM (take name) (given.about topic) =
        some (given'.about topic) := by
  induction items generalizing given with
  | nil =>
    constructor
    · intro h topic
      obtain rfl : given = given' := Option.some.inj h
      rfl
    · intro h
      exact congrArg some (ext_about fun topic => Option.some.inj (h topic))
  | cons item items ih =>
    rw [List.foldlM_cons]
    constructor
    · intro h topic
      obtain ⟨next, htake, hrest⟩ := Option.bind_eq_some_iff.mp h
      by_cases htopic : item.topic = topic
      · subst htopic
        rw [about_cons_self, List.foldlM_cons, ← about_take, htake]
        exact ih.mp hrest item.topic
      · rw [about_cons_of_ne htopic, ← about_take_of_ne htopic htake]
        exact ih.mp hrest topic
    · intro h
      -- the part that the item is about takes it, and so does the whole
      have hitem := h item.topic
      rw [about_cons_self, List.foldlM_cons, ← about_take] at hitem
      obtain ⟨_, hpart, hrest⟩ := Option.bind_eq_some_iff.mp hitem
      obtain ⟨next, htake, rfl⟩ := Option.map_eq_some_iff.mp hpart
      refine Option.bind_eq_some_iff.mpr ⟨next, htake, ih.mpr fun topic => ?_⟩
      by_cases htopic : item.topic = topic
      · subst htopic
        exact hrest
      · rw [about_take_of_ne htopic htake, ← about_cons_of_ne htopic]
        exact h topic

end Given

/-- The values that items give. -/
def givenBy (name : CommandName) (items : List Item) : Option Given :=
  items.foldlM (Given.take name) {}

theorem givenBy_concat (name : CommandName) (items : List Item) (item : Item) :
    givenBy name (items ++ [item]) = (givenBy name items).bind fun given => given.take name item := by
  unfold givenBy
  rw [List.foldlM_append]
  exact bind_congr fun given => bind_pure (given.take name item)

theorem givenBy_iff {given : Given} :
    givenBy name items = some given ↔
      ∀ topic, givenBy name (about topic items) = some (given.about topic) := by
  have hempty : ∀ topic, Given.about {} topic = {} := fun topic => by cases topic <;> rfl
  unfold givenBy
  rw [Given.foldlM_take_iff]
  simp only [hempty]

/-- A flag that is given at most once is up if it is given, and a flag is not given twice. -/
theorem givenBy_lenient (name : CommandName) (items : List Item) {isLenient : Bool} :
    givenBy name (about .lenient items) = some { lenient := isLenient } ↔
      (about .lenient items).length ≤ 1 ∧ (isLenient = true ↔ about .lenient items ≠ []) := by
  have htake : ∀ item ∈ about .lenient items, ∀ given : Given,
      given.take name item = given.put "" .lenient := by
    intro item hitem given
    have htopic : item.topic = .lenient := of_decide_eq_true (List.mem_filter.mp hitem).2
    match item with
    | .flag .lenient | .option .lenient _ => rfl
    | .argument _ => exact nomatch htopic
  -- no item, one item, or the second of two, which is refused
  match h : about .lenient items with
  | [] =>
    cases isLenient with
    | false => simp [givenBy]
    | true => simp [givenBy]
  | [item] =>
    have hone : givenBy name [item] = some { lenient := true } := by
      unfold givenBy
      rw [List.foldlM_cons, htake item (h ▸ List.mem_cons_self)]
      rfl
    rw [hone]
    cases isLenient with
    | false => simp
    | true => simp
  | item :: again :: rest =>
    have htwo : givenBy name (item :: again :: rest) = none := by
      unfold givenBy
      rw [List.foldlM_cons, htake item (h ▸ List.mem_cons_self)]
      show (({ lenient := true } : Given).take name again).bind _ = none
      rw [htake again (h ▸ List.mem_cons_of_mem _ List.mem_cons_self)]
      rfl
    rw [htwo]
    simp

/-- What the items about a topic give is about that topic. -/
theorem about_of_givenBy {given : Given} (h : givenBy name (about topic items) = some given) :
    given.about topic = given := by
  have habout := givenBy_iff.mp h topic
  simp only [about, List.filter_filter, Bool.and_self] at habout h
  exact (Option.some.inj (h.symm.trans habout)).symm

/-- What is given about each topic makes up what is given. -/
theorem givenBy_of_topics {config logLevel command : Given} {isLenient : Bool}
    (hconfig : givenBy name (about .config items) = some config)
    (hlogLevel : givenBy name (about .logLevel items) = some logLevel)
    (hlenient : givenBy name (about .lenient items) = some { lenient := isLenient })
    (hcommand : givenBy name (about .command items) = some command) :
    givenBy name items = some { command with
      config := config.config, logLevel := logLevel.logLevel, lenient := isLenient } := by
  refine givenBy_iff.mpr fun topic => ?_
  cases topic with
  | config => exact hconfig.trans (congrArg some (about_of_givenBy hconfig).symm)
  | logLevel => exact hlogLevel.trans (congrArg some (about_of_givenBy hlogLevel).symm)
  | lenient => exact hlenient
  | command => exact hcommand.trans (congrArg some (about_of_givenBy hcommand).symm)

/-! ## Words -/

namespace Token

/-- A plain word is one that does not look like an option. -/
theorem ofString_eq_word_iff : ofString s = .word ↔ IsPlain s := by
  unfold ofString IsPlain
  split
  next hs => simp [hs, ← String.toList_inj]
  next cs hne hs =>
    simp only [hs, ← String.toList_inj]
    split
    next => simp
    next => simp
  next c cs _ hs => simp [hs, ← String.toList_inj]
  next hterminator hlong hshort =>
    refine iff_of_true rfl fun hhead => ?_
    cases hs : s.toList with
    | nil => simp [hs] at hhead
    | cons c cs =>
      obtain rfl : c = '-' := by simpa [hs] using hhead
      cases cs with
      | nil => exact String.toList_inj.mp hs
      | cons d ds => exact absurd hs (hshort d ds)

theorem ofString_eq_terminator (h : ofString s = .terminator) : s = "--" := by
  unfold ofString at h
  split at h
  next hs => exact String.toList_inj.mp hs
  next =>
    dsimp only at h
    split at h
    next => cases h
    next => cases h
  next => cases h
  next => cases h

/-- A long option is the word behind the dashes, up to an equals sign and what follows it. -/
theorem ofString_eq_long {text : String} {value : Option String}
    (h : ofString s = .long text value) :
    s = "--" ++ text ++ (value.elim "" fun value => "=" ++ value) := by
  unfold ofString at h
  split at h
  next => cases h
  next cs hne hs =>
    have hcs : cs = cs.takeWhile (· != '=') ++ cs.dropWhile (· != '=') :=
      List.takeWhile_append_dropWhile.symm
    apply String.toList_inj.mp
    dsimp only at h
    split at h
    next hrest =>
      obtain ⟨rfl, rfl⟩ := Token.long.inj h
      rw [hrest, List.append_nil] at hcs
      simp [hs, ← hcs]
    next c value hrest =>
      obtain ⟨rfl, rfl⟩ := Token.long.inj h
      have hc : c = '=' := by
        have hne : cs.dropWhile (· != '=') ≠ [] := by simp [hrest]
        have hnot := List.head_dropWhile_not (· != '=') hne
        simpa [hrest] using hnot
      rw [hrest, hc] at hcs
      simp [hs]
      exact hcs
  next => cases h
  next => cases h

theorem ofString_option (o : Opt) : ofString ("--" ++ o.text) = .long o.text none := by
  cases o with
  | _ => rfl

/-- An option with its value behind the first equals sign. -/
theorem ofString_joined (o : Opt) (text : String) :
    ofString ("--" ++ o.text ++ "=" ++ text) = .long o.text (some text) := by
  cases o with
  | _ =>
    unfold ofString
    simp [Opt.text]

end Token

/-! ## Levels -/

namespace Level

variable {level next : Level} {given given' : Given}

theorem awaited?_of_settle (h : level.settle = some given) : level.awaited? = none := by
  obtain ⟨_, pending⟩ := level
  match pending with
  | none | some (_, some _) => rfl
  | some (_, none) => exact nomatch h

/-- A value is awaited for an option that was given without one. -/
theorem awaited?_eq_some_iff {o : Opt} : level.awaited? = some o ↔ level.pending = some (o, none) := by
  obtain ⟨_, pending⟩ := level
  match pending with
  | none | some (_, some _) => simp [awaited?]
  | some (_, none) => simp [awaited?]

/-- What a level does with a value at once. -/
theorem settleAnd_eq_some_iff {change : Given → Option Given} :
    ((level.settle.bind change).map fun given => ({ given } : Level)) = some next ↔
      ∃ given given', level.settle = some given ∧ change given = some given' ∧
        next = { given := given' } := by
  simp only [Option.map_eq_some_iff, Option.bind_eq_some_iff]
  constructor
  · rintro ⟨given', ⟨given, hsettle, hchange⟩, rfl⟩
    exact ⟨given, given', hsettle, hchange, rfl⟩
  · rintro ⟨given, given', hsettle, hchange, rfl⟩
    exact ⟨given', ⟨given, hsettle, hchange⟩, rfl⟩

/-- What a word does to a level that it is no argument of. -/
inductive Takes (options : List Opt) (level : Level) : String → Level → Prop where
  /-- It is the value that comes next, -/
  | value {o : Opt} {s : String} (hpending : level.pending = some (o, none)) (hs : IsPlain s) :
      Takes options level s { level with pending := some (o, some s) }
  /-- a flag, -/
  | flag {o : Opt} {next : Level} (ho : o ∈ options) (hflag : o.isFlag = true)
      (hput : level.put o "" = some next) : Takes options level ("--" ++ o.text) next
  /-- an option whose value comes next, -/
  | await {o : Opt} {next : Level} (ho : o ∈ options) (hflag : o.isFlag = false)
      (hawait : level.await o = some next) : Takes options level ("--" ++ o.text) next
  /-- or an option with its value. -/
  | joined {o : Opt} {text : String} {next : Level} (ho : o ∈ options) (hflag : o.isFlag = false)
      (hput : level.put o text = some next) :
      Takes options level ("--" ++ o.text ++ "=" ++ text) next

/-- A level has read words. They write the items whose values it has when it is settled, and an
option whose value comes next may stand at their end. -/
inductive HasRead (name : CommandName) (options : List Opt) (hasArgument : Bool) (level : Level) :
    List String → Prop where
  | settled {items : List Item} {words : List String}
      (hwords : AreWritten options hasArgument items words) (hawaited : level.awaited? = none)
      (hgiven : level.settle = givenBy name items) : HasRead name options hasArgument level words
  | awaiting {items : List Item} {words : List String} {o : Opt}
      (hwords : AreWritten options hasArgument items words) (ho : o ∈ options)
      (hflag : o.isFlag = false) (hpending : level.pending = some (o, none))
      (hgiven : givenBy name items = some level.given) :
      HasRead name options hasArgument level (words ++ ["--" ++ o.text])

theorem hasRead_nil (name : CommandName) (options : List Opt) (hasArgument : Bool) :
    HasRead name options hasArgument {} [] :=
  .settled .nil rfl rfl

/-- If a level can be settled then the words write items. -/
theorem HasRead.exists_items (h : level.HasRead name options hasArgument words)
    (hsettle : level.settle = some given) :
    ∃ items, AreWritten options hasArgument items words ∧ givenBy name items = some given := by
  cases h with
  | @settled items _ hwords _ hgiven => exact ⟨items, hwords, hgiven.symm.trans hsettle⟩
  | awaiting _ _ _ hpending _ =>
    have hawaited := awaited?_eq_some_iff.mpr hpending
    exact absurd ((awaited?_of_settle hsettle).symm.trans hawaited) (by simp)

/-- A level that is settled takes in an item. -/
theorem HasRead.take (h : level.HasRead name options hasArgument words) {item : Item}
    {more : List String} (hitem : item.IsWritten options hasArgument more)
    (hsettle : level.settle = some given) (htake : given.take name item = some given') :
    HasRead name options hasArgument { given := given' } (words ++ more) := by
  obtain ⟨items, hwords, hgiven⟩ := h.exists_items hsettle
  refine .settled (hwords.concat hitem) rfl ?_
  rw [givenBy_concat, hgiven]
  exact htake.symm

/-- **Every word that is taken** keeps up what the level has read. -/
theorem HasRead.takes (h : level.HasRead name options hasArgument words)
    (htakes : level.Takes options s next) :
    next.HasRead name options hasArgument (words ++ [s]) := by
  cases htakes with
  | @value o _ hpending hs =>
    cases h with
    | settled _ hawaited _ =>
      exact absurd (hawaited.symm.trans (awaited?_eq_some_iff.mpr hpending)) (by simp)
    | @awaiting items words o' hwords ho hflag hpending' hgiven =>
      obtain ⟨rfl, -⟩ := Prod.mk.inj (Option.some.inj (hpending.symm.trans hpending'))
      rw [List.append_assoc]
      refine .settled (hwords.concat (.next ho hflag hs)) rfl ?_
      rw [givenBy_concat, hgiven]
      rfl
  | flag ho hflag hput =>
    obtain ⟨given, given', hsettle, hgiven, rfl⟩ := settleAnd_eq_some_iff.mp hput
    exact h.take (.flag ho hflag) hsettle hgiven
  | await ho hflag hawait =>
    obtain ⟨given, hsettle, rfl⟩ := Option.map_eq_some_iff.mp hawait
    obtain ⟨items, hwords, hgiven⟩ := h.exists_items hsettle
    exact .awaiting hwords ho hflag rfl hgiven
  | joined ho hflag hput =>
    obtain ⟨given, given', hsettle, hgiven, rfl⟩ := settleAnd_eq_some_iff.mp hput
    exact h.take (.joined ho hflag) hsettle hgiven

end Level

/-! ## Steps of the reading -/

namespace Scan

variable {scan next : Scan} {level : Level}

theorem level_setLevel (scan : Scan) (level : Level) : (scan.setLevel level).level = level := by
  obtain ⟨_, phase, _, _⟩ := scan
  cases phase with
  | _ => rfl

theorem phase_setLevel (scan : Scan) (level : Level) :
    (scan.setLevel level).phase = scan.phase := by
  obtain ⟨_, phase, _, _⟩ := scan
  cases phase with
  | _ => rfl

theorem options_setLevel (scan : Scan) (level : Level) :
    (scan.setLevel level).options = scan.options := by
  unfold options
  rw [phase_setLevel]

theorem setLevel_level (scan : Scan) : scan.setLevel scan.level = scan := by
  obtain ⟨_, phase, _, _⟩ := scan
  cases phase with
  | _ => rfl

theorem isVerbatim_setLevel (scan : Scan) (level : Level) :
    (scan.setLevel level).isVerbatim = scan.isVerbatim := by
  obtain ⟨_, phase, _, _⟩ := scan
  cases phase with
  | _ => rfl

theorem setLevel_setLevel (scan : Scan) (level level' : Level) :
    (scan.setLevel level).setLevel level' = scan.setLevel level' := by
  obtain ⟨_, phase, _, _⟩ := scan
  cases phase with
  | _ => rfl

/-- A step on a level succeeds exactly if the level takes the word. -/
theorem withLevel_eq_ok_iff {new : Option Level} :
    scan.withLevel new = .ok next ↔ ∃ level, new = some level ∧ next = scan.setLevel level := by
  cases new with
  | none => simp [withLevel]
  | some level => simp [withLevel, eq_comm]

/-- The options of a level have different names. -/
theorem find?_of_mem {o : Opt} (ho : o ∈ scan.options) :
    (scan.options.find? fun o' => o'.text == o.text) = some o := by
  have hcommand : ∀ name : CommandName, ∀ o ∈ name.options,
      (name.options.find? fun o' => o'.text == o.text) = some o := by
    intro name
    cases name with
    | _ => decide
  have heverywhere : ∀ o ∈ Opt.everywhere,
      (Opt.everywhere.find? fun o' => o'.text == o.text) = some o := by decide
  unfold options at ho ⊢
  split at ho
  next name _ => exact hcommand name o ho
  next => exact heverywhere o ho

/-- No option is a request for help or for the version. -/
theorem long_of_mem {o : Opt} (ho : o ∈ scan.options) (value : Option String) :
    scan.long o.text value =
      if o.isFlag then
        if value.isSome then .error .rejected else scan.withLevel (scan.level.put o "")
      else scan.withLevel (value.elim (scan.level.await o) (scan.level.put o)) := by
  have hrequest : ¬(o.text = "help" ∨ (o.text = "version" ∧ scan.phase = .root)) := by
    cases o with
    | _ => simp [Opt.text]
  unfold long
  rw [if_neg hrequest, find?_of_mem ho]
  cases value with
  | none | some value =>
    cases hflag : o.isFlag with
    | false => simp [hflag]
    | true => simp [hflag]

/-- **A word that the level takes** is a step of the reading. -/
theorem step_of_takes (hverbatim : scan.isVerbatim = false)
    (h : scan.level.Takes scan.options s level) : scan.step s = .ok (scan.setLevel level) := by
  have hlong : ∀ {given : Given} {text : String} {value : Option String},
      scan.level.settle = some given → Token.ofString s = .long text value →
        scan.step s = scan.long text value := by
    intro given text value hsettle htoken
    unfold step
    rw [Level.awaited?_of_settle hsettle, hverbatim, htoken]
    rfl
  cases h with
  | value hpending hs =>
    unfold step
    rw [Level.awaited?_eq_some_iff.mpr hpending]
    exact if_pos (Token.ofString_eq_word_iff.mpr hs)
  | flag ho hflag hput =>
    obtain ⟨_, _, hsettle, -, -⟩ := Level.settleAnd_eq_some_iff.mp hput
    rw [hlong hsettle (Token.ofString_option _), long_of_mem ho, hflag, hput]
    rfl
  | await ho hflag hawait =>
    obtain ⟨_, hsettle, -⟩ := Option.map_eq_some_iff.mp hawait
    rw [hlong hsettle (Token.ofString_option _), long_of_mem ho, hflag]
    exact congrArg scan.withLevel hawait
  | joined ho hflag hput =>
    obtain ⟨_, _, hsettle, -, -⟩ := Level.settleAnd_eq_some_iff.mp hput
    rw [hlong hsettle (Token.ofString_joined _ _), long_of_mem ho, hflag]
    exact congrArg scan.withLevel hput

/-- A word that is read as an option is one that the level takes. -/
theorem exists_takes_of_long {text : String} {value : Option String}
    (h : scan.long text value = .ok next) :
    ∃ level, scan.level.Takes scan.options
      ("--" ++ text ++ (value.elim "" fun value => "=" ++ value)) level ∧
        next = scan.setLevel level := by
  -- a word that names no option of the level is an error
  obtain ⟨o, hfind⟩ : ∃ o, (scan.options.find? fun o => o.text == text) = some o := by
    unfold long at h
    split at h
    next => exact nomatch h
    next =>
      split at h
      next => exact nomatch h
      next o hfind => exact ⟨o, hfind⟩
      next o _ hfind => exact ⟨o, hfind⟩
  have ho : o ∈ scan.options := List.mem_of_find?_eq_some hfind
  have hbeq := List.find?_some hfind
  obtain rfl : o.text = text := beq_iff_eq.mp hbeq
  rw [long_of_mem ho] at h
  cases hflag : o.isFlag with
  | true =>
    rw [hflag] at h
    cases value with
    | some value => exact nomatch h
    | none =>
      obtain ⟨level, hput, rfl⟩ := withLevel_eq_ok_iff.mp h
      rw [Option.elim_none, String.append_empty]
      exact ⟨level, .flag ho hflag hput, rfl⟩
  | false =>
    rw [hflag] at h
    obtain ⟨level, hnew, rfl⟩ := withLevel_eq_ok_iff.mp h
    cases value with
    | none =>
      rw [Option.elim_none, String.append_empty]
      exact ⟨level, .await ho hflag hnew, rfl⟩
    | some value =>
      rw [Option.elim_some, ← String.append_assoc]
      exact ⟨level, .joined ho hflag hnew, rfl⟩

/-- **A step of the reading** is a word that the level takes, unless it does not look like one. -/
theorem takes_or_word_of_step (hverbatim : scan.isVerbatim = false) (hs : s ≠ "--")
    (h : scan.step s = .ok next) :
    (∃ level, scan.level.Takes scan.options s level ∧ next = scan.setLevel level) ∨
      (scan.level.awaited? = none ∧ IsPlain s ∧ scan.word s = .ok next) := by
  unfold step at h
  split at h
  next o ho =>
    split at h
    next htoken =>
      obtain rfl := Except.ok.inj h
      exact .inl ⟨_, .value (Level.awaited?_eq_some_iff.mp ho)
        (Token.ofString_eq_word_iff.mp htoken), rfl⟩
    next => exact nomatch h
  next hawaited =>
    rw [hverbatim] at h
    simp only [Bool.false_eq_true, if_false] at h
    split at h
    next htoken => exact absurd (Token.ofString_eq_terminator htoken) hs
    next text value htoken =>
      rw [Token.ofString_eq_long htoken]
      exact .inl (exists_takes_of_long h)
    next =>
      unfold short at h
      split at h
      next => exact nomatch h
      next => exact nomatch h
    next htoken => exact .inr ⟨hawaited, Token.ofString_eq_word_iff.mp htoken, h⟩

/-! ## Lines that are accepted write items -/

/-- The reading has come here with these words. Nothing need be known behind a request for help, since
no invocation comes of it. -/
inductive HasRead : Scan → List String → Prop where
  | root {first : Level} {words : List String}
      (hfirst : ∀ name, first.HasRead name Opt.everywhere false words) : HasRead { first } words
  | command {first second : Level} {name : CommandName} {front back : List String}
      (hfirst : first.HasRead name Opt.everywhere false front)
      (hsecond : second.HasRead name name.options name.hasArgument back) :
      HasRead { first, phase := .command name, second } (front ++ name.text :: back)
  | help {scan : Scan} {words : List String} {hasTopic : Bool} (hphase : scan.phase = .help hasTopic) :
      HasRead scan words

theorem eq_text_of_ofText? (h : CommandName.ofText? s = some name) : s = name.text := by
  have hbeq := List.find?_some h
  exact (beq_iff_eq.mp hbeq).symm

/-- Every command is called by its name. -/
theorem ofText?_text (name : CommandName) : CommandName.ofText? name.text = some name := by
  cases name with
  | _ => rfl

theorem hasArgument_of_putArgument {given given' : Given}
    (h : given.putArgument s name = some given') : name.hasArgument = true := by
  cases name with
  | edid | vic => rfl
  | _ => exact nomatch h

/-- A request for help is never left. -/
theorem exists_phase_of_step {hasTopic : Bool} (hphase : scan.phase = .help hasTopic)
    (h : scan.step s = .ok next) : ∃ hasTopic', next.phase = .help hasTopic' := by
  unfold step at h
  split at h
  next =>
    split at h
    next =>
      obtain rfl := Except.ok.inj h
      exact ⟨hasTopic, (phase_setLevel _ _).trans hphase⟩
    next => exact nomatch h
  next =>
    have hverbatim : scan.isVerbatim = true := by
      unfold isVerbatim
      rw [hphase]
    rw [hverbatim] at h
    simp only [if_true] at h
    unfold word at h
    rw [hphase] at h
    dsimp only at h
    split at h
    next =>
      obtain rfl := Except.ok.inj h
      exact ⟨true, rfl⟩
    next => exact nomatch h

/-- **One step** keeps up what the reading has come by. -/
theorem HasRead.step (h : scan.HasRead words) (hs : s ≠ "--") (hstep : scan.step s = .ok next) :
    next.HasRead (words ++ [s]) := by
  cases h with
  | @root first _ hfirst =>
    obtain ⟨level, htakes, rfl⟩ | ⟨-, -, hword⟩ := takes_or_word_of_step rfl hs hstep
    · exact .root fun name => (hfirst name).takes htakes
    · -- the word asks for help, calls a command, or is unknown
      unfold word at hword
      simp only [Bool.false_eq_true, if_false] at hword
      split at hword
      next =>
        obtain rfl := Except.ok.inj hword
        exact .help rfl
      next =>
        split at hword
        next name hname =>
          obtain rfl := Except.ok.inj hword
          rw [eq_text_of_ofText? hname]
          exact .command (hfirst name) (Level.hasRead_nil name _ _)
        next => exact nomatch hword
  | @command first second name front back hfirst hsecond =>
    rw [List.append_assoc, List.cons_append]
    obtain ⟨level, htakes, rfl⟩ | ⟨-, hplain, hword⟩ := takes_or_word_of_step rfl hs hstep
    · exact .command hfirst (hsecond.takes htakes)
    · obtain ⟨level, hput, rfl⟩ := withLevel_eq_ok_iff.mp hword
      obtain ⟨given, given', hsettle, hgiven, rfl⟩ := Level.settleAnd_eq_some_iff.mp hput
      exact .command hfirst
        (hsecond.take (.argument (hasArgument_of_putArgument hgiven) hplain) hsettle hgiven)
  | help hphase =>
    obtain ⟨hasTopic, hphase⟩ := exists_phase_of_step hphase hstep
    exact .help hphase

/-- Reading more words keeps up that what was read writes items. -/
theorem HasRead.run (h : scan.HasRead words) {args : List String} (hargs : "--" ∉ args)
    (hrun : args.foldlM Scan.step scan = .ok next) : next.HasRead (words ++ args) := by
  induction args generalizing scan words with
  | nil =>
    obtain rfl := Except.ok.inj hrun
    rwa [List.append_nil]
  | cons s args ih =>
    rw [List.mem_cons, not_or] at hargs
    rw [List.foldlM_cons] at hrun
    obtain ⟨middle, hstep, hrest⟩ := bind_eq_ok_iff.mp hrun
    rw [List.append_cons]
    exact ih (h.step (Ne.symm hargs.1) hstep) hargs.2 hrest

theorem hasRead_run {args : List String} (hargs : "--" ∉ args) (h : Scan.run args = .ok scan) :
    scan.HasRead args :=
  HasRead.run (.root fun name => Level.hasRead_nil name _ _) hargs h

/-! ## Words that write items are accepted -/

/-- A plain word that no option awaits is the argument of the command. -/
theorem step_of_isPlain {given given' : Given} (hverbatim : scan.isVerbatim = false)
    (hphase : scan.phase = .command name) (hs : IsPlain s) (hsettle : scan.level.settle = some given)
    (hput : given.putArgument s name = some given') :
    scan.step s = .ok (scan.setLevel { given := given' }) := by
  have hnew : scan.level.putArgument name s = some { given := given' } :=
    Level.settleAnd_eq_some_iff.mpr ⟨given, given', hsettle, hput, rfl⟩
  unfold step
  rw [Level.awaited?_of_settle hsettle, hverbatim, Token.ofString_eq_word_iff.mpr hs]
  show scan.word s = _
  unfold word
  rw [hphase]
  show scan.withLevel (scan.level.putArgument name s) = _
  rw [hnew]
  rfl

/-- The words of an item are read, and then the level has its value. -/
theorem run_of_isWritten {given given' : Given} (hverbatim : scan.isVerbatim = false)
    (hargument : hasArgument = true → scan.phase = .command name)
    (hsettle : scan.level.settle = some given)
    (hitem : item.IsWritten scan.options hasArgument words)
    (htake : given.take name item = some given') :
    ∃ level, words.foldlM Scan.step scan = .ok (scan.setLevel level) ∧
      level.settle = some given' := by
  -- what the item gives can be put as soon as all before it is settled
  have hput : ∀ {o : Opt} {text : String}, given.put text o = some given' →
      scan.level.put o text = some { given := given' } := fun h =>
    Level.settleAnd_eq_some_iff.mpr ⟨given, given', hsettle, h, rfl⟩
  cases hitem with
  | flag ho hflag =>
    refine ⟨{ given := given' }, ?_, rfl⟩
    rw [List.foldlM_cons, step_of_takes hverbatim (.flag ho hflag (hput htake))]
    rfl
  | @next o text ho hflag htext =>
    have hawait : scan.level.await o = some { given, pending := some (o, none) } := by
      unfold Level.await
      rw [hsettle]
      rfl
    -- a separate value stays pending until its level goes on, and is settled to what the item gives
    refine ⟨{ given, pending := some (o, some text) }, ?_, htake⟩
    rw [List.foldlM_cons, step_of_takes hverbatim (.await ho hflag hawait)]
    have hvalue : (scan.setLevel { given, pending := some (o, none) }).level.Takes
        (scan.setLevel { given, pending := some (o, none) }).options text
        { given, pending := some (o, some text) } := by
      rw [level_setLevel]
      exact .value rfl htext
    show [text].foldlM Scan.step (scan.setLevel _) = _
    rw [List.foldlM_cons, step_of_takes ((isVerbatim_setLevel _ _).trans hverbatim) hvalue,
      setLevel_setLevel]
    rfl
  | joined ho hflag =>
    refine ⟨{ given := given' }, ?_, rfl⟩
    rw [List.foldlM_cons, step_of_takes hverbatim (.joined ho hflag (hput htake))]
    rfl
  | argument hhas htext =>
    refine ⟨{ given := given' }, ?_, rfl⟩
    rw [List.foldlM_cons, step_of_isPlain hverbatim (hargument hhas) htext hsettle htake]
    rfl

/-- The words of items are read, one item after the other. -/
theorem run_of_areWritten (scan : Scan) {given given' : Given} (hverbatim : scan.isVerbatim = false)
    (hargument : hasArgument = true → scan.phase = .command name)
    (hsettle : scan.level.settle = some given) (hoptions : scan.options = options)
    (hitems : AreWritten options hasArgument items words)
    (htake : items.foldlM (Given.take name) given = some given') :
    ∃ level, words.foldlM Scan.step scan = .ok (scan.setLevel level) ∧
      level.settle = some given' := by
  induction hitems generalizing scan given with
  | nil =>
    obtain rfl : given = given' := Option.some.inj htake
    refine ⟨scan.level, ?_, hsettle⟩
    rw [setLevel_level]
    rfl
  | cons hitem _ ih =>
    rw [List.foldlM_cons] at htake
    obtain ⟨middle, hmiddle, hrest⟩ := Option.bind_eq_some_iff.mp htake
    rw [← hoptions] at hitem
    obtain ⟨level, hrun, hlevel⟩ := run_of_isWritten hverbatim hargument hsettle hitem hmiddle
    obtain ⟨last, hlast, hgiven⟩ := ih _ ((isVerbatim_setLevel scan level).trans hverbatim)
      (fun h => (phase_setLevel scan level).trans (hargument h))
      (by rwa [level_setLevel]) ((options_setLevel scan level).trans hoptions) hrest
    refine ⟨last, ?_, hgiven⟩
    rw [List.foldlM_append, hrun]
    exact hlast.trans (congrArg _ (setLevel_setLevel scan level last))

/-- The name of a command ends the first level and begins the second. -/
theorem step_text {first : Level} {given : Given} (hsettle : first.settle = some given)
    (name : CommandName) :
    Scan.step { first } name.text = .ok { first, phase := .command name } := by
  have hawaited : ({ first } : Scan).level.awaited? = none := Level.awaited?_of_settle hsettle
  unfold step
  rw [hawaited]
  cases name with
  | _ => rfl

/-- **The words of a line are read** to their end. -/
theorem run_of_isLine {first second : List Item} {args : List String} {given given' : Given}
    (h : IsLine first name second args) (hfirst : givenBy name first = some given)
    (hsecond : givenBy name second = some given') :
    ∃ scan, Scan.run args = .ok scan ∧ scan.phase = .command name ∧
      scan.first.settle = some given ∧ scan.second.settle = some given' := by
  obtain ⟨front, back, hfront, hback, rfl⟩ := h
  obtain ⟨level, hrun, hlevel⟩ :=
    run_of_areWritten {} rfl (fun h : false = true => nomatch h) rfl rfl hfront hfirst
  obtain ⟨last, hlast, hgiven⟩ :=
    run_of_areWritten { first := level, phase := .command name } rfl (fun _ => rfl) rfl rfl hback
      hsecond
  refine ⟨{ first := level, phase := .command name, second := last }, ?_, rfl, hlevel, hgiven⟩
  unfold Scan.run
  rw [List.foldlM_append, hrun]
  show (name.text :: back).foldlM Scan.step { first := level } = _
  rw [List.foldlM_cons, step_text hlevel]
  exact hlast

end Scan

/-! ## The parser -/

namespace Invocation

variable {environment : String → Option String} {invocation : Invocation} {args : List String}

/-- A line is accepted if it is read to its end, calls a command, and both levels can be settled. -/
theorem ofArguments_eq_ok_iff :
    ofArguments environment args = .ok invocation ↔
      ∃ scan name given given', Scan.run args = .ok scan ∧ scan.phase = .command name ∧
        scan.first.settle = some given ∧ scan.second.settle = some given' ∧
        ofLevels environment name given given' = .ok invocation := by
  constructor
  · intro h
    unfold ofArguments at h
    split at h
    next => exact nomatch h
    next scan hrun =>
      unfold ofScan at h
      split at h
      next => exact nomatch h
      next => exact nomatch h
      next name hphase =>
        split at h
        next given given' hfirst hsecond =>
          exact ⟨scan, name, given, given', hrun, hphase, hfirst, hsecond, h⟩
        next => exact nomatch h
  · rintro ⟨scan, name, given, given', hrun, hphase, hfirst, hsecond, h⟩
    unfold ofArguments
    rw [hrun]
    show ofScan environment scan = _
    unfold ofScan
    rw [hphase, hfirst, hsecond]
    exact h

/-- What is made of the two levels is made topic by topic. -/
theorem ofLevels_eq_ok_iff {given given' : Given} :
    ofLevels environment name given given' = .ok invocation ↔
      configOf environment given.config given'.config = some invocation.config ∧
        logLevelOf environment given.logLevel given'.logLevel = invocation.logLevel ∧
        given'.command? name = some invocation.command ∧
        invocation.isLenient = (given.lenient || given'.lenient) := by
  obtain ⟨config, logLevel, isLenient, command⟩ := invocation
  unfold ofLevels
  constructor
  · intro h
    split at h
    next command config hcommand hconfig =>
      obtain ⟨rfl, rfl, rfl, rfl⟩ := Invocation.mk.inj (Except.ok.inj h)
      exact ⟨hconfig, rfl, hcommand, rfl⟩
    next => exact nomatch h
  · rintro ⟨hconfig, hlogLevel, hcommand, hlenient⟩
    dsimp only at hconfig hlogLevel hcommand hlenient
    rw [hcommand, hconfig, hlogLevel, hlenient]

/-- An accepted line is written by items that give its values, and such a line is accepted. -/
theorem ofArguments_iff_isLine (hargs : "--" ∉ args) :
    ofArguments environment args = .ok invocation ↔
      ∃ first name second given given', IsLine first name second args ∧
        givenBy name first = some given ∧ givenBy name second = some given' ∧
        ofLevels environment name given given' = .ok invocation := by
  rw [ofArguments_eq_ok_iff]
  constructor
  · rintro ⟨scan, name, given, given', hrun, hphase, hfirst, hsecond, h⟩
    cases Scan.hasRead_run hargs hrun with
    | root => exact nomatch hphase
    | help hhelp => exact absurd (hhelp.symm.trans hphase) (by simp)
    | command hfront hback =>
      obtain rfl := Phase.command.inj hphase
      obtain ⟨first, hfront, hgiven⟩ := hfront.exists_items hfirst
      obtain ⟨second, hback, hgiven'⟩ := hback.exists_items hsecond
      exact ⟨first, _, second, given, given', ⟨_, _, hfront, hback, rfl⟩, hgiven, hgiven', h⟩
  · rintro ⟨first, name, second, given, given', hline, hfirst, hsecond, h⟩
    obtain ⟨scan, hrun, hphase, hgiven, hgiven'⟩ := Scan.run_of_isLine hline hfirst hsecond
    exact ⟨scan, name, given, given', hrun, hphase, hgiven, hgiven', h⟩

end Invocation

/-- The parser that the program is run with. -/
def lineParser : Parser where
  parse := Invocation.ofArguments
  config environment name first second := do
    let given ← givenBy name first
    let given' ← givenBy name second
    Invocation.configOf environment given.config given'.config
  logLevel environment name first second := do
    let given ← givenBy name first
    let given' ← givenBy name second
    return Invocation.logLevelOf environment given.logLevel given'.logLevel
  command name second := do
    let given ← givenBy name second
    given.command? name

/-- What items give makes the invocation that the items make. -/
theorem makes_lineParser_iff {environment : String → Option String} {first second : List Item}
    {args : List String} {invocation : Invocation} (hline : IsLine first name second args) :
    lineParser.Makes environment name first second invocation ↔
      ∃ given given', givenBy name first = some given ∧ givenBy name second = some given' ∧
        Invocation.ofLevels environment name given given' = .ok invocation := by
  simp only [Invocation.ofLevels_eq_ok_iff]
  constructor
  · -- the two levels are put together from what was given for each topic
    intro h
    obtain ⟨config, hconfig, hrest⟩ := Option.bind_eq_some_iff.mp h.config
    obtain ⟨config', hconfig', hconfigOf⟩ := Option.bind_eq_some_iff.mp hrest
    obtain ⟨logLevel, hlogLevel, hrest⟩ := Option.bind_eq_some_iff.mp h.logLevel
    obtain ⟨logLevel', hlogLevel', hlogLevelOf⟩ := Option.bind_eq_some_iff.mp hrest
    obtain ⟨command, hcommand, hcommand?⟩ := Option.bind_eq_some_iff.mp h.command
    have hnone : givenBy name (about .command first) = some {} := by
      rw [hline.about_command]
      rfl
    have hlenient := (givenBy_lenient name first).mpr ⟨h.once.1, decide_eq_true_iff⟩
    have hlenient' := (givenBy_lenient name second).mpr ⟨h.once.2, decide_eq_true_iff⟩
    refine ⟨_, _, givenBy_of_topics hconfig hlogLevel hlenient hnone,
      givenBy_of_topics hconfig' hlogLevel' hlenient' hcommand, hconfigOf,
      Option.some.inj hlogLevelOf, ?_, ?_⟩
    · rw [← hcommand?, ← Given.command?_about, ← Given.command?_about command]
      rfl
    · rw [Bool.eq_iff_iff, h.isLenient_iff]
      simp
  · rintro ⟨given, given', hfirst, hsecond, hconfig, hlogLevel, hcommand, hlenient⟩
    have hfirst := givenBy_iff.mp hfirst
    have hsecond := givenBy_iff.mp hsecond
    obtain ⟨honce, hgiven⟩ := (givenBy_lenient name first).mp (hfirst .lenient)
    obtain ⟨honce', hgiven'⟩ := (givenBy_lenient name second).mp (hsecond .lenient)
    refine ⟨?_, ?_, ?_, ⟨honce, honce'⟩, ?_⟩
    · refine Option.bind_eq_some_iff.mpr ⟨_, hfirst .config, ?_⟩
      exact Option.bind_eq_some_iff.mpr ⟨_, hsecond .config, hconfig⟩
    · refine Option.bind_eq_some_iff.mpr ⟨_, hfirst .logLevel, ?_⟩
      exact Option.bind_eq_some_iff.mpr ⟨_, hsecond .logLevel, congrArg some hlogLevel⟩
    · refine Option.bind_eq_some_iff.mpr ⟨_, hsecond .command, ?_⟩
      rwa [Given.command?_about]
    · rw [hlenient, Bool.or_eq_true, hgiven, hgiven']

/-- **The parser that the program is run with does what is documented.** -/
theorem isDocumented_lineParser : lineParser.IsDocumented where
  accepts := by
    intro environment first second name args invocation hargs hline hmakes
    obtain ⟨given, given', hfirst, hsecond, h⟩ := (makes_lineParser_iff hline).mp hmakes
    exact (Invocation.ofArguments_iff_isLine hargs).mpr
      ⟨first, name, second, given, given', hline, hfirst, hsecond, h⟩
  exists_line := by
    intro environment args invocation hargs h
    obtain ⟨first, name, second, given, given', hline, hgiven⟩ :=
      (Invocation.ofArguments_iff_isLine hargs).mp h
    exact ⟨first, name, second, hline, (makes_lineParser_iff hline).mpr ⟨given, given', hgiven⟩⟩

end VideoOutput.Cli
