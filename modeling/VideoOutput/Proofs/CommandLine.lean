import VideoOutput.Cli.Run

/-!
# Parsers of the command line

What a parser makes of a command line is not decided in this library, so it is assumed here. What is
declared to it is this: which options there are, which of them are flags, which may stand on both
levels, and which commands take an argument. `Parser.IsDocumented` is what the documentation promises
of such a declaration:

* an accepted line is written by items: options of the first level, a command, and items of the
  second level. A flag is a word of its own. Any other option has its value behind an equals sign or
  as the next word, which must not look like an option then (`Item.IsWritten`, `IsLine`);
* items are kept by what they are about. What becomes of the file with the settings, of the log level
  and of the command depends on the items about it, and on no others (`Parser.Makes`);
* a flag may be given once on a level, and is up if it was given. A flag for both levels is up if it
  was given on either.

What is made of the values is left open: which of them are acceptable, which options a command needs,
and how variables stand in for options. Nothing at all is assumed of lines with two dashes in them,
behind which all words are arguments.

So adding the flag of lenient reading as an item of its own is harmless, wherever it stands between
the other items (`IsLine.raiseFirst`, `IsLine.raiseSecond`, `Makes.raise`). And a line in which the
word for the flag does not occur has no item about it (`AreWritten.about_lenient`).
-/

namespace VideoOutput.Cli

/-! ## Items -/

/-- Something that is given on a level of a command line. -/
inductive Item where
  /-- A flag. -/
  | flag (o : Opt)
  /-- An option with its value. -/
  | option (o : Opt) (text : String)
  /-- An argument without a name. -/
  | argument (text : String)
  deriving DecidableEq

/-- What an item can be about. -/
inductive Topic where
  /-- The file with the settings. -/
  | config
  | logLevel
  /-- Lenient reading. -/
  | lenient
  | command
  deriving DecidableEq

/-- What an option is about. -/
def Opt.topic : Opt → Topic
  | config => .config
  | logLevel => .logLevel
  | lenient => .lenient
  | _ => .command

/-- What an item is about. -/
def Item.topic : Item → Topic
  | flag o => o.topic
  | option o _ => o.topic
  | argument _ => .command

/-- The items about something. -/
def about (topic : Topic) (items : List Item) : List Item :=
  items.filter fun item => item.topic = topic

@[simp] theorem about_append (topic : Topic) (items more : List Item) :
    about topic (items ++ more) = about topic items ++ about topic more :=
  List.filter_append items more

theorem about_cons_self (item : Item) (items : List Item) :
    about item.topic (item :: items) = item :: about item.topic items :=
  List.filter_cons_of_pos (decide_eq_true rfl)

theorem about_cons_of_ne {topic : Topic} {item : Item} (h : item.topic ≠ topic)
    (items : List Item) : about topic (item :: items) = about topic items :=
  List.filter_cons_of_neg fun heq => h (of_decide_eq_true heq)

/-- The word does not look like an option. A dash alone does not. -/
def IsPlain (s : String) : Prop :=
  s.toList.head? = some '-' → s = "-"

/-- On a level with some options, and with an argument or without one, these words write the item. -/
inductive Item.IsWritten (options : List Opt) (hasArgument : Bool) : Item → List String → Prop where
  | flag {o : Opt} (ho : o ∈ options) (hflag : o.isFlag = true) :
      IsWritten options hasArgument (.flag o) ["--" ++ o.text]
  /-- The value of an option is the next word, -/
  | next {o : Opt} {text : String} (ho : o ∈ options) (hflag : o.isFlag = false)
      (htext : IsPlain text) :
      IsWritten options hasArgument (.option o text) ["--" ++ o.text, text]
  /-- or it is joined to it. -/
  | joined {o : Opt} {text : String} (ho : o ∈ options) (hflag : o.isFlag = false) :
      IsWritten options hasArgument (.option o text) ["--" ++ o.text ++ "=" ++ text]
  | argument {text : String} (hargument : hasArgument = true) (htext : IsPlain text) :
      IsWritten options hasArgument (.argument text) [text]

/-- Items are written one after the other. -/
inductive AreWritten (options : List Opt) (hasArgument : Bool) : List Item → List String → Prop where
  | nil : AreWritten options hasArgument [] []
  | cons {item : Item} {items : List Item} {words more : List String}
      (h : item.IsWritten options hasArgument words)
      (hitems : AreWritten options hasArgument items more) :
      AreWritten options hasArgument (item :: items) (words ++ more)

/-- The command has an argument without a name. -/
def CommandName.hasArgument : CommandName → Bool
  | edid => true
  | vic => true
  | _ => false

/-- The words write items, a command, and items behind it. Only options stand before the command. -/
def IsLine (first : List Item) (name : CommandName) (second : List Item) (args : List String) :
    Prop :=
  ∃ front back, AreWritten Opt.everywhere false first front ∧
    AreWritten name.options name.hasArgument second back ∧ args = front ++ name.text :: back

variable {options : List Opt} {hasArgument : Bool} {items more first second : List Item}
  {item : Item} {words words' args : List String} {name : CommandName}

/-- What is about lenient reading is written with the flag's own word. -/
theorem Item.IsWritten.mem_of_lenient (h : item.IsWritten options hasArgument words)
    (hitem : item.topic = .lenient) : "--lenient" ∈ words := by
  cases h with
  | @flag o =>
    cases o with
    | lenient => exact List.mem_singleton_self _
    | _ => exact nomatch hitem
  | @next o _ _ hflag | @joined o _ _ hflag =>
    cases o with
    | lenient => exact nomatch hflag
    | _ => exact nomatch hitem
  | argument => exact nomatch hitem

namespace AreWritten

/-- What two lists of items are written as stands one behind the other. -/
theorem append (h : AreWritten options hasArgument items words)
    (hmore : AreWritten options hasArgument more words') :
    AreWritten options hasArgument (items ++ more) (words ++ words') := by
  induction h with
  | nil => exact hmore
  | cons hitem _ ih =>
    rw [List.cons_append, List.append_assoc]
    exact .cons hitem ih

theorem concat (h : AreWritten options hasArgument items words)
    (hitem : item.IsWritten options hasArgument words') :
    AreWritten options hasArgument (items ++ [item]) (words ++ words') := by
  have hone : AreWritten options hasArgument [item] (words' ++ []) := .cons hitem .nil
  rw [List.append_nil] at hone
  exact h.append hone

/-- **Without the flag's own word no item is about lenient reading.** -/
theorem about_lenient (h : AreWritten options hasArgument items words)
    (hflag : "--lenient" ∉ words) : about .lenient items = [] := by
  induction h with
  | nil => rfl
  | @cons item _ _ _ hitem _ ih =>
    rw [List.mem_append, not_or] at hflag
    have htopic : item.topic ≠ .lenient := fun heq => hflag.1 (hitem.mem_of_lenient heq)
    rw [about_cons_of_ne htopic]
    exact ih hflag.2

end AreWritten

namespace IsLine

/-- The flag may be written before the command and behind every command. -/
theorem isWritten_lenient (hoption : .lenient ∈ options) :
    Item.IsWritten options hasArgument (.flag .lenient) ["--lenient"] :=
  .flag hoption rfl

theorem lenient_mem_options (name : CommandName) : .lenient ∈ name.options := by
  cases name with
  | _ => decide

/-- The flag written in front of a line is an item of the first level of that line. -/
theorem raiseFirst (h : IsLine first name second args) :
    IsLine (.flag .lenient :: first) name second ("--lenient" :: args) := by
  obtain ⟨front, back, hfront, hback, rfl⟩ := h
  exact ⟨"--lenient" :: front, back, .cons (isWritten_lenient (by decide)) hfront, hback, rfl⟩

/-- The flag written behind a line is an item of its second level. -/
theorem raiseSecond (h : IsLine first name second args) :
    IsLine first name (second ++ [.flag .lenient]) (args ++ ["--lenient"]) := by
  obtain ⟨front, back, hfront, hback, rfl⟩ := h
  refine ⟨front, back ++ ["--lenient"], hfront,
    hback.concat (isWritten_lenient (lenient_mem_options name)), ?_⟩
  rw [List.append_assoc, List.cons_append]

/-- A line without the word for the flag has no item about it, on either level. -/
theorem about_lenient (h : IsLine first name second args) (hflag : "--lenient" ∉ args) :
    about .lenient first = [] ∧ about .lenient second = [] := by
  obtain ⟨front, back, hfront, hback, rfl⟩ := h
  rw [List.mem_append, List.mem_cons, not_or, not_or] at hflag
  exact ⟨hfront.about_lenient hflag.1, hback.about_lenient hflag.2.2⟩

/-- Nothing that stands before the command is about it. -/
theorem about_command (h : IsLine first name second args) : about .command first = [] := by
  have heverywhere : ∀ o ∈ Opt.everywhere, o.topic ≠ .command := by decide
  obtain ⟨front, _, hfront, -, -⟩ := h
  induction hfront with
  | nil => rfl
  | @cons item _ _ _ hitem _ ih =>
    have htopic : item.topic ≠ .command := by
      cases hitem with
      | flag ho | next ho | joined ho => exact heverywhere _ ho
      | argument hargument => exact nomatch hargument
    rw [about_cons_of_ne htopic]
    exact ih

end IsLine

/-! ## Parsers -/

/-- A parser of command lines, with what it makes of the items about a topic. -/
structure Parser where
  /-- The invocation of a line, with the variables at hand. -/
  parse : (String → Option String) → List String → Except Exit Invocation
  /-- The file with the settings, from the items about it on both levels. -/
  config : (String → Option String) → CommandName → List Item → List Item → Option (Option String)
  /-- The log level, from the items about it on both levels. -/
  logLevel : (String → Option String) → CommandName → List Item → List Item → Option String
  /-- The command, from the items about it. -/
  command : CommandName → List Item → Option Command

namespace Parser

variable {parser : Parser} {environment : String → Option String} {invocation : Invocation}
  {first' second' : List Item}

/-- The items around a command make the invocation. -/
structure Makes (parser : Parser) (environment : String → Option String) (name : CommandName)
    (first second : List Item) (invocation : Invocation) : Prop where
  config : parser.config environment name (about .config first) (about .config second) =
    some invocation.config
  logLevel : parser.logLevel environment name (about .logLevel first) (about .logLevel second) =
    some invocation.logLevel
  command : parser.command name (about .command second) = some invocation.command
  /-- A flag is given at most once on a level. -/
  once : (about .lenient first).length ≤ 1 ∧ (about .lenient second).length ≤ 1
  /-- A flag for both levels is up if it is given on either. -/
  isLenient_iff : invocation.isLenient = true ↔
    about .lenient first ≠ [] ∨ about .lenient second ≠ []

/-- What the documentation promises of a parser, for lines without two dashes: it accepts what is
written by items that make an invocation, and nothing else. -/
structure IsDocumented (parser : Parser) : Prop where
  accepts : ∀ {environment : String → Option String} {first second : List Item} {name : CommandName}
    {args : List String} {invocation : Invocation}, "--" ∉ args → IsLine first name second args →
      parser.Makes environment name first second invocation →
        parser.parse environment args = .ok invocation
  exists_line : ∀ {environment : String → Option String} {args : List String}
    {invocation : Invocation}, "--" ∉ args → parser.parse environment args = .ok invocation →
      ∃ first name second, IsLine first name second args ∧
        parser.Makes environment name first second invocation

/-- **The flag changes nothing but itself.** Items of which one is the flag, and which are the same
about everything else, make the same invocation but for the flag. -/
theorem Makes.raise (h : parser.Makes environment name first second invocation)
    (hsame : ∀ topic ≠ .lenient,
      about topic first' = about topic first ∧ about topic second' = about topic second)
    (honce : (about .lenient first').length ≤ 1 ∧ (about .lenient second').length ≤ 1)
    (hraised : about .lenient first' ≠ [] ∨ about .lenient second' ≠ []) :
    parser.Makes environment name first' second' { invocation with isLenient := true } where
  config := by
    obtain ⟨hfirst, hsecond⟩ := hsame .config (by decide)
    rw [hfirst, hsecond]
    exact h.config
  logLevel := by
    obtain ⟨hfirst, hsecond⟩ := hsame .logLevel (by decide)
    rw [hfirst, hsecond]
    exact h.logLevel
  command := by
    rw [(hsame .command (by decide)).2]
    exact h.command
  once := honce
  isLenient_iff := iff_of_true rfl hraised

end Parser

end VideoOutput.Cli
