import VideoOutput.Proofs.LineReading

/-!
# Where the flag of lenient reading may stand

The flag may stand before the command and behind it, and it counts wherever it stands. What is
promised here is promised of every parser that does what is documented, and of every reader of
settings in JSON texts, about which nothing is assumed at all.

A line that is accepted without two dashes in it is written by items around a command. In front of
the line a word for the flag is one more item of the first level, and behind it one more of the
second. Neither can be taken for the value of an option: in front there is no option that waits for
one, and behind the line there is none either, since an accepted line is written by whole items. So
the line with the word is accepted as well, and it makes the same invocation but for the flag
(`sameButLenient_at_ends`).

What the flag does then is decided when the settings have been found, be it in a file or in
variables: it sets the checksum policy and nothing else, and where no settings are found the reason
is the same (`sameButLenient_raised`). A flag that was looked at earlier would change the reason for
which settings are missing, and one that was looked at in one place only would leave the other
strict.
-/

namespace VideoOutput.Cli.Invocation

variable {environment : String → Option String} {invocation : Invocation}
  {read : String → Except Json.Problem Settings} {parser : Parser} {args : List String}

/-- Another invocation is the same but for lenient reading. -/
structure SameButLenient (read : String → Except Json.Problem Settings) (host : Host)
    (invocation other : Invocation) : Prop where
  command : other.command = invocation.command
  config : other.config = invocation.config
  logLevel : other.logLevel = invocation.logLevel
  /-- Its settings are missing for the same reason, or are the same but for the checksum policy. -/
  settings : other.settings host read =
    (invocation.settings host read).map fun settings => { settings with checksum := .lenient }

/-- The flag has its say when the settings are found already, in whichever place. -/
theorem sameButLenient_raised (read : String → Except Json.Problem Settings) (host : Host)
    (invocation : Invocation) :
    SameButLenient read host invocation { invocation with isLenient := true } := by
  refine ⟨rfl, rfl, rfl, ?_⟩
  have hfound : ({ invocation with isLenient := true } : Invocation).found host read =
      invocation.found host read := rfl
  unfold settings
  rw [hfound]
  cases invocation.found host read with
  | error messages => rfl
  | ok settings =>
    cases invocation.isLenient with
    | false => rfl
    | true => rfl

/-- The flag in front of a line raises it, and changes nothing else. -/
theorem parse_raised_in_front (hparser : parser.IsDocumented)
    (h : parser.parse environment args = .ok invocation) (hflag : "--lenient" ∉ args)
    (hterminator : "--" ∉ args) :
    parser.parse environment ("--lenient" :: args) = .ok { invocation with isLenient := true } := by
  obtain ⟨first, name, second, hline, hmakes⟩ := hparser.exists_line hterminator h
  obtain ⟨hfirst, hsecond⟩ := hline.about_lenient hflag
  have hone : about .lenient (.flag .lenient :: first) = [.flag .lenient] := by
    rw [show Topic.lenient = (Item.flag .lenient).topic from rfl, about_cons_self]
    exact congrArg _ hfirst
  have hdashes : "--" ∉ "--lenient" :: args := by
    rw [List.mem_cons, not_or]
    exact ⟨by decide, hterminator⟩
  refine hparser.accepts hdashes hline.raiseFirst (hmakes.raise ?_ ?_ ?_)
  · exact fun topic htopic => ⟨about_cons_of_ne (Ne.symm htopic) first, rfl⟩
  · rw [hone, hsecond]
    exact ⟨Nat.le_refl 1, Nat.zero_le 1⟩
  · rw [hone]
    exact .inl (List.cons_ne_nil _ _)

/-- So does the flag behind it. -/
theorem parse_raised_behind (hparser : parser.IsDocumented)
    (h : parser.parse environment args = .ok invocation) (hflag : "--lenient" ∉ args)
    (hterminator : "--" ∉ args) :
    parser.parse environment (args ++ ["--lenient"]) =
      .ok { invocation with isLenient := true } := by
  obtain ⟨first, name, second, hline, hmakes⟩ := hparser.exists_line hterminator h
  obtain ⟨hfirst, hsecond⟩ := hline.about_lenient hflag
  have hone : about .lenient (second ++ [.flag .lenient]) = [.flag .lenient] := by
    rw [about_append, hsecond]
    rfl
  have hdashes : "--" ∉ args ++ ["--lenient"] := by
    rw [List.mem_append, not_or]
    exact ⟨hterminator, by decide⟩
  refine hparser.accepts hdashes hline.raiseSecond (hmakes.raise ?_ ?_ ?_)
  · intro topic htopic
    have hnone : about topic [Item.flag .lenient] = [] := about_cons_of_ne (Ne.symm htopic) []
    rw [about_append, hnone, List.append_nil]
    exact ⟨rfl, rfl⟩
  · rw [hone, hfirst]
    exact ⟨Nat.zero_le 1, Nat.le_refl 1⟩
  · rw [hone]
    exact .inr (List.cons_ne_nil _ _)

/-- **The flag of lenient reading may stand at either end.** A line that is accepted and has neither
the flag nor two dashes in it is accepted with the flag in front and with the flag behind it, and
then it is the same invocation but for lenient reading. -/
theorem sameButLenient_at_ends (hparser : parser.IsDocumented) {host : Host}
    (h : parser.parse host.environment args = .ok invocation) (hflag : "--lenient" ∉ args)
    (hterminator : "--" ∉ args) :
    ∀ line ∈ ["--lenient" :: args, args ++ ["--lenient"]],
      ∃ other, parser.parse host.environment line = .ok other ∧
        SameButLenient read host invocation other := by
  intro line hline
  refine ⟨{ invocation with isLenient := true }, ?_, sameButLenient_raised read host invocation⟩
  rcases List.mem_cons.mp hline with rfl | hline
  · exact parse_raised_in_front hparser h hflag hterminator
  · obtain rfl := List.mem_singleton.mp hline
    exact parse_raised_behind hparser h hflag hterminator

-- where a value has to come the word is none, and behind two dashes it is an argument
example : ofArguments (fun _ => none) ["negotiate", "--name", "--lenient", "720p"] =
    .error .rejected := rfl

example : ofArguments (fun _ => none) ["edid", "--", "--lenient"] =
    .ok ⟨none, "info", false, .edid "--lenient" false⟩ := rfl

set_option maxRecDepth 4000 in
/-- A line that names its settings in front of the command and ends in a value that is not judged
yet. The settings ask for strict reading, and the flag at either end overrides them. -/
theorem sameButLenient_over_strict_settings :
    lineParser.IsDocumented ∧
      ∃ (host : Host) (args : List String) (invocation : Invocation),
        lineParser.parse host.environment args = .ok invocation ∧ "--lenient" ∉ args ∧
        "--" ∉ args ∧
        invocation.settings host Settings.parse = .ok { checksum := .strict, queueLimit := 8 } ∧
        ∀ line ∈ ["--lenient" :: args, args ++ ["--lenient"]],
          ∃ other, lineParser.parse host.environment line = .ok other ∧
            SameButLenient Settings.parse host invocation other ∧
            other.settings host Settings.parse = .ok { checksum := .lenient, queueLimit := 8 } := by
  obtain ⟨host, hhost⟩ : ∃ host : Host, host = ⟨fun _ => none, fun _ =>
    .ok "[\"strict\", \"720p\", 1, 1, 8]".toUTF8.toList, 2026⟩ := ⟨_, rfl⟩
  obtain ⟨args, hargs⟩ : ∃ args, args = ["--config", "tv.json", "display", "--edid", "tv.bin",
    "--supported", "4,16", "--set", "8k"] := ⟨_, rfl⟩
  have haccepted : lineParser.parse host.environment args =
      .ok ⟨some "tv.json", "info", false, .display "tv.bin" [4, 16] (some "8k")⟩ := by
    rw [hhost, hargs]
    rfl
  have hsettings : Invocation.settings
      ⟨some "tv.json", "info", false, .display "tv.bin" [4, 16] (some "8k")⟩ host Settings.parse =
        .ok { checksum := .strict, queueLimit := 8 } := by
    rw [hhost]
    decide +kernel
  have hflag : "--lenient" ∉ args := by
    rw [hargs]
    decide
  have hterminator : "--" ∉ args := by
    rw [hargs]
    decide
  refine ⟨isDocumented_lineParser, host, args, _, haccepted, hflag, hterminator, hsettings,
    fun line hline => ?_⟩
  obtain ⟨other, hother, hsame⟩ := sameButLenient_at_ends isDocumented_lineParser haccepted hflag
    hterminator line hline
  refine ⟨other, hother, hsame, ?_⟩
  rw [hsame.settings, hsettings]
  rfl

end VideoOutput.Cli.Invocation
