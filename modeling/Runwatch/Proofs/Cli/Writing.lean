/-
Runwatch.Proofs.Cli.Writing — a command that is written down is read back.

An invocation is written as the name of its command with a mention for each of
its options (`Invocation.Mentions`): the one of the configuration file before
the name or behind it, those behind the name in any order, and what equals the
standard given or left out. Whatever the texts in it are, reading the arguments
gives the invocation back.

  §1 Options  — the mentions of an invocation, and what is written of them.
  §2 Values   — every value that is written is accepted.
  §3 Commands — what is read of an option, and the command that is made of it.
  §4 Arguments — `Mentions.parse_spelled`.

The main statement is `Invocation.read_back`.
-/
import Mathlib.Data.List.Perm.Basic
import Runwatch.Cli.Command
import Runwatch.Proofs.Cli.Scanning
import Runwatch.Proofs.Token.Naming

namespace Runwatch.Cli

/-! ## §1 Options -/

/-- The mentions that may be left out: what is used where an option is not
given. -/
def standardMentions : List Mention :=
  [("config", some standardConfig), ("until", some WaitTarget.agentFinish.word),
   ("environment", some Environment.standard.word), ("outcome", some RunEnd.completed.word)]

/-- The paths of a command are not empty, and the keys of its entries are read
back. -/
def Command.IsWritable : Command → Prop
  | .waitMarker _ lifecycleDir _ => ∀ path ∈ lifecycleDir, path ≠ ""
  | .waitTelemetry _ _ logPath _ | .tailTelemetry _ logPath _ => ∀ path ∈ logPath, path ≠ ""
  | .notify _ _ _ data => ∀ entry ∈ data, IsKey entry.1
  | .registerToken .. | .notifyRun .. => True

/-- The mentions of an invocation. -/
def Invocation.options (i : Invocation) : List Mention :=
  ("config", some i.config) :: i.command.options

/-- The mentions of an invocation are written before the name of its command,
behind it, or not at all. Only the configuration file may be mentioned before
the name and only what equals the standard be left out; the order is free, but
for the entries of a notification. -/
structure Invocation.Mentions (i : Invocation) (before behind left : List Mention) : Prop where
  all : (before ++ behind ++ left).Perm i.options
  before : ∀ m ∈ before, m.1 = "config"
  left : ∀ m ∈ left, m ∈ standardMentions
  data : mentionsOf behind "data" = mentionsOf i.options "data"

@[simp] theorem given?_some (option value : String) :
    given? option (some value) = [(option, some value)] := rfl

@[simp] theorem mentionsOf_given? (option name : String) (value : Option String) :
    mentionsOf (given? option value) name = if option = name then given? option value else [] := by
  cases value <;> simp [given?]

@[simp] theorem mentionsOf_dataMentions (data : List (String × String)) (name : String) :
    mentionsOf (data.map fun entry => ("data", some (entry.1 ++ "=" ++ entry.2))) name =
      if "data" = name then data.map fun entry => ("data", some (entry.1 ++ "=" ++ entry.2))
      else [] := by
  by_cases h : "data" = name <;> simp [mentionsOf, List.filter_map, Function.comp_def, h]

theorem mem_given? {m : Mention} {name : String} {value : Option String}
    (h : m ∈ given? name value) : ∃ v, value = some v ∧ m = (name, some v) := by
  cases value with
  | none => cases h
  | some v => exact ⟨v, rfl, List.mem_singleton.mp h⟩

theorem Distinct.append_repeated {ms ms' : List Mention} (h : Distinct ms)
    (hrepeated : ∀ m ∈ ms', m.1 = repeatedName) : Distinct (ms ++ ms') :=
  List.pairwise_append.mpr
    ⟨h, List.pairwise_of_forall_mem_list fun _ _ m' hm' _ => hrepeated m' hm',
      fun _ _ m' hm' _ => hrepeated m' hm'⟩

/-- An invocation mentions each option once; only entries are repeated. -/
theorem Invocation.distinct_options (i : Invocation) : Distinct i.options := by
  obtain ⟨config, command⟩ := i
  cases command with
  | waitMarker taskRun lifecycleDir timeoutSecs =>
    cases lifecycleDir <;> cases timeoutSecs <;>
      simp [Distinct, Invocation.options, Command.options, given?]
  | waitTelemetry taskRun target logPath timeoutSecs =>
    cases logPath <;> cases timeoutSecs <;>
      simp [Distinct, Invocation.options, Command.options, given?]
  | tailTelemetry taskRun logPath untilFinish =>
    cases logPath <;> cases untilFinish <;>
      simp [Distinct, Invocation.options, Command.options, given?]
  | registerToken user token bundle environment =>
    simp [Distinct, Invocation.options, Command.options]
  | notify user title body data =>
    have hsingle : Distinct [("config", some config), ("user", some user), ("title", some title),
        ("body", some body)] := by simp [Distinct]
    refine hsingle.append_repeated fun m hm => ?_
    obtain ⟨entry, -, rfl⟩ := List.mem_map.mp hm
    rfl
  | notifyRun user taskRun outcome title error =>
    cases title <;> cases error <;> simp [Distinct, Invocation.options, Command.options, given?]

theorem Distinct.mentionsOf_length {ms : List Mention} (h : Distinct ms) {name : String}
    (hname : name ≠ repeatedName) : (mentionsOf ms name).length ≤ 1 := by
  have hsub : Distinct (mentionsOf ms name) := List.Pairwise.sublist List.filter_sublist h
  have hnames : ∀ m ∈ mentionsOf ms name, m.1 = name := fun m hm => (mem_mentionsOf.mp hm).2
  match mentionsOf ms name, hsub, hnames with
  | [], _, _ | [_], _, _ => simp
  | m :: m' :: _, hsub, hnames =>
    have hm := hnames m (by simp)
    have hm' := hnames m' (by simp)
    have hrepeated := (List.pairwise_cons.mp hsub).1 m' (by simp) (hm.trans hm'.symm)
    exact absurd (hm'.symm.trans hrepeated) hname

/-- Of each option, what is written before the name, behind it and not at all
are together its mentions, in order. -/
theorem Invocation.Mentions.mentionsOf {i : Invocation} {before behind left : List Mention}
    (h : i.Mentions before behind left) (name : String) :
    mentionsOf before name ++ mentionsOf behind name ++ mentionsOf left name =
      mentionsOf i.options name := by
  by_cases hname : name = repeatedName
  · subst hname
    have hbefore : Cli.mentionsOf before repeatedName = [] :=
      mentionsOf_eq_nil fun m hm => by rw [h.before m hm]; decide
    have hleft : Cli.mentionsOf left repeatedName = [] := by
      refine mentionsOf_eq_nil fun m hm => ?_
      have hstandard : ∀ m ∈ standardMentions, m.1 ≠ repeatedName := by decide
      exact hstandard m (h.left m hm)
    rw [hbefore, hleft, List.nil_append, List.append_nil]
    exact h.data
  · have hperm : (Cli.mentionsOf (before ++ behind ++ left) name).Perm
        (Cli.mentionsOf i.options name) := h.all.filter _
    have hlength := i.distinct_options.mentionsOf_length hname
    rw [mentionsOf_append, mentionsOf_append] at hperm
    match hoptions : Cli.mentionsOf i.options name, hlength with
    | [], _ => exact List.perm_nil.mp (hoptions ▸ hperm)
    | [m], _ => exact List.perm_singleton.mp (hoptions ▸ hperm)

/-! ## §2 Values -/

theorem word64?_decimal (n : UInt64) : Text.word64? (Text.decimal n.toNat).toList = some n := by
  obtain ⟨width, hwidth⟩ : ∃ width, (Text.decimalChars n.toNat).length = width + 1 :=
    Nat.exists_eq_add_one.mpr (List.length_pos_iff.mpr (Text.decimalChars_ne_nil _))
  have hwrites : Text.Writes (width + 1) n.toNat (Text.decimalChars n.toNat) :=
    ⟨hwidth, fun _ => Text.isDigit_of_mem_decimalChars, Text.natOfDigits_decimalChars _⟩
  rw [Text.decimal, String.toList_ofList, hwrites.word64?]

theorem seconds_decimal (n : UInt64) : seconds (Text.decimal n.toNat) = .ok () := by
  rw [seconds, word64?_decimal]
  rfl

theorem bind_decimal (secs : Option UInt64) :
    ((secs.map fun n => Text.decimal n.toNat).bind fun s => Text.word64? s.toList) = secs := by
  cases secs <;> simp [word64?_decimal]

theorem lookup_targetWord (target : WaitTarget) :
    WaitTarget.words.lookup target.word = some target := by
  cases target <;> rfl

theorem oneOf_targetWord (target : WaitTarget) : oneOf WaitTarget.words target.word = .ok () := by
  rw [oneOf, lookup_targetWord]
  rfl

theorem lookup_endWord (outcome : RunEnd) : RunEnd.words.lookup outcome.word = some outcome := by
  cases outcome <;> rfl

theorem oneOf_endWord (outcome : RunEnd) : oneOf RunEnd.words outcome.word = .ok () := by
  rw [oneOf, lookup_endWord]
  rfl

theorem parse_environmentWord (e : Environment) : Environment.parse e.word = .ok e := by
  rw [Environment.parse_eq_ok_iff_mem]
  cases e <;> decide +kernel

theorem read_environmentWord (e : Environment) :
    (Environment.parse e.word).toOption = some e := by
  rw [parse_environmentWord]
  rfl

theorem aTier_word (e : Environment) : aTier e.word = .ok () := by
  rw [aTier, parse_environmentWord]

theorem IsKey.anEntry {key : String} (h : IsKey key) (value : String) :
    anEntry (key ++ "=" ++ value) = .ok () := by
  rw [Cli.anEntry, h.parseEntry]

theorem filterMap_parseEntry {data : List (String × String)} (h : ∀ entry ∈ data, IsKey entry.1) :
    ((data.map fun entry => entry.1 ++ "=" ++ entry.2).filterMap fun s =>
      (parseEntry s).toOption) = data := by
  rw [List.filterMap_map]
  calc data.filterMap ((fun s => (parseEntry s).toOption) ∘ fun entry => entry.1 ++ "=" ++ entry.2)
      = data.filterMap some := by
        refine List.filterMap_congr fun entry hentry => ?_
        simp only [Function.comp_apply, (h entry hentry).parseEntry]
        rfl
    _ = data := List.filterMap_some

theorem aPath_eq_ok {path : String} (h : path ≠ "") : aPath path = .ok () := by
  rw [aPath, if_neg (by simpa using h)]

/-! ## §3 Commands -/

theorem topLevel_regular : topLevel.IsRegular := by decide +kernel

theorem commandLevel_regular : ∀ entry ∈ commands, (commandLevel entry.2.1).IsRegular := by
  decide +kernel

theorem head?_commands : ∀ c ∈ topLevel.commands, c.toList.head? ≠ some '-' := by
  decide +kernel

/-- The options of the level behind a command. -/
def Command.specs (c : Command) : List OptionSpec :=
  ((commands.lookup c.name).map (·.1)).getD []

/-- How a command is made of what was given. -/
def Command.made (c : Command) (g : Given) : Except UsageError Command :=
  ((commands.lookup c.name).map (·.2 g)).getD (.error .unknownCommand)

theorem Command.lookup_commands (c : Command) : commands.lookup c.name = some (c.specs, c.made) := by
  cases c <;> rfl

theorem Command.mem_commands (c : Command) : (c.name, c.specs, c.made) ∈ commands := by
  obtain ⟨front, back, hcommands, -⟩ := List.lookup_eq_some_iff.mp c.lookup_commands
  rw [hcommands]
  exact List.mem_append_right _ List.mem_cons_self

theorem textOption_carries (name value : String) : (textOption name).Carries (some value) :=
  .value nofun rfl

theorem pathOption_carries (name : String) {path : String} (h : path ≠ "") :
    (pathOption name).Carries (some path) :=
  .value nofun (aPath_eq_ok h)

theorem given?_carries {o : OptionSpec} {value : Option String}
    (h : ∀ v ∈ value, o.Carries (some v)) {m : Mention} (hm : m ∈ given? o.name value) :
    o.name = m.1 ∧ o.Carries m.2 := by
  obtain ⟨v, rfl, rfl⟩ := mem_given? hm
  exact ⟨rfl, h v rfl⟩

theorem tierOption_carries (name : String) (e : Environment) :
    (OptionSpec.mk name .once aTier).Carries (some e.word) := by
  refine .value nofun ?_
  -- Reduced first; unifying with the open check would run the reader of tiers.
  dsimp only
  exact aTier_word e

theorem given?_path_carries {name : String} {path : Option String} (h : ∀ p ∈ path, p ≠ "")
    {m : Mention} (hm : m ∈ given? name path) : name = m.1 ∧ (pathOption name).Carries m.2 :=
  given?_carries (fun p hp => pathOption_carries name (h p hp)) hm

theorem given?_seconds_carries {name : String} {secs : Option UInt64} {m : Mention}
    (hm : m ∈ given? name (secs.map fun n => Text.decimal n.toNat)) :
    name = m.1 ∧ (OptionSpec.mk name .once seconds).Carries m.2 := by
  refine given?_carries (o := ⟨name, .once, seconds⟩) (fun v hv => ?_) hm
  obtain ⟨n, -, rfl⟩ := Option.map_eq_some_iff.mp hv
  exact .value nofun (seconds_decimal n)

/-- The options behind the name of a command carry what it mentions. -/
theorem Command.exists_carries {c : Command} (h : c.IsWritable) :
    ∀ m ∈ c.options, ∃ o ∈ c.specs, o.name = m.1 ∧ o.Carries m.2 := by
  intro m hm
  cases c
  all_goals
    simp only [options, List.cons_append, List.mem_cons, List.mem_append, List.not_mem_nil,
      or_false] at hm
    simp only [specs, Command.name, commands, List.lookup_cons, String.reduceBEq, Option.map_some,
      Option.getD_some]
  case waitMarker taskRun lifecycleDir timeoutSecs =>
    rcases hm with rfl | hm | hm
    · exact ⟨textOption "task-run-id", by simp, rfl, textOption_carries ..⟩
    · exact ⟨pathOption "lifecycle-dir", by simp, given?_path_carries h hm⟩
    · exact ⟨⟨"timeout-secs", .once, seconds⟩, by simp, given?_seconds_carries hm⟩
  case waitTelemetry taskRun target logPath timeoutSecs =>
    rcases hm with rfl | rfl | hm | hm
    · exact ⟨textOption "task-run-id", by simp, rfl, textOption_carries ..⟩
    · exact ⟨⟨"until", .once, oneOf WaitTarget.words⟩, by simp, rfl,
        .value nofun (oneOf_targetWord target)⟩
    · exact ⟨pathOption "log-path", by simp, given?_path_carries h hm⟩
    · exact ⟨⟨"timeout-secs", .once, seconds⟩, by simp, given?_seconds_carries hm⟩
  case tailTelemetry taskRun logPath untilFinish =>
    rcases hm with rfl | hm | hm
    · exact ⟨textOption "task-run-id", by simp, rfl, textOption_carries ..⟩
    · exact ⟨pathOption "log-path", by simp, given?_path_carries h hm⟩
    · cases untilFinish with
      | false => cases hm
      | true =>
        obtain rfl := List.mem_singleton.mp hm
        exact ⟨⟨"until-finish", .flag, anyText⟩, by simp, rfl, .flag rfl⟩
  case registerToken user token bundle environment =>
    rcases hm with rfl | rfl | rfl | rfl
    · exact ⟨textOption "user", by simp, rfl, textOption_carries ..⟩
    · exact ⟨textOption "token", by simp, rfl, textOption_carries ..⟩
    · exact ⟨textOption "bundle-id", by simp, rfl, textOption_carries ..⟩
    · exact ⟨⟨"environment", .once, aTier⟩, by simp, rfl, tierOption_carries _ environment⟩
  case notify user title body data =>
    rcases hm with rfl | rfl | rfl | hm
    · exact ⟨textOption "user", by simp, rfl, textOption_carries ..⟩
    · exact ⟨textOption "title", by simp, rfl, textOption_carries ..⟩
    · exact ⟨textOption "body", by simp, rfl, textOption_carries ..⟩
    · obtain ⟨entry, hentry, rfl⟩ := List.mem_map.mp hm
      exact ⟨⟨"data", .repeated, anEntry⟩, by simp, rfl,
        .value nofun ((h entry hentry).anEntry entry.2)⟩
  case notifyRun user taskRun outcome title error =>
    rcases hm with rfl | rfl | rfl | hm | hm
    · exact ⟨textOption "user", by simp, rfl, textOption_carries ..⟩
    · exact ⟨textOption "task-run-id", by simp, rfl, textOption_carries ..⟩
    · exact ⟨⟨"outcome", .once, oneOf RunEnd.words⟩, by simp, rfl,
        .value nofun (oneOf_endWord outcome)⟩
    · exact ⟨textOption "title", by simp, given?_carries (fun v _ => textOption_carries _ v) hm⟩
    · exact ⟨textOption "error", by simp, given?_carries (fun v _ => textOption_carries _ v) hm⟩

/-- What is written behind the name of a command completes to its mentions by
what is left out. -/
structure Command.GivenBy (c : Command) (behind left : List Mention) : Prop where
  standard : ∀ m ∈ left, m ∈ standardMentions
  mentions : ∀ name ≠ "config",
    mentionsOf behind name ++ mentionsOf left name = mentionsOf c.options name

theorem Invocation.Mentions.givenBy {i : Invocation} {before behind left : List Mention}
    (h : i.Mentions before behind left) : i.command.GivenBy behind left := by
  refine ⟨h.left, fun name hname => ?_⟩
  have hbefore : Cli.mentionsOf before name = [] :=
    mentionsOf_eq_nil fun m hm => (h.before m hm).trans_ne hname.symm
  have hmentions := h.mentionsOf name
  rwa [hbefore, List.nil_append, options, mentionsOf_cons, if_neg hname.symm] at hmentions

section

variable {c : Command} {behind left : List Mention} (h : c.GivenBy behind left)

include h

/-- An option without a standard value is mentioned behind the name. -/
theorem Command.GivenBy.mentionsOf {name : String} (hname : ∀ m ∈ standardMentions, m.1 ≠ name) :
    mentionsOf behind name = mentionsOf c.options name := by
  have hleft : Cli.mentionsOf left name = [] :=
    mentionsOf_eq_nil fun m hm => hname m (h.standard m hm)
  rw [← h.mentions name (hname _ (.head _)).symm, hleft, List.append_nil]

theorem Command.GivenBy.value? {name : String} {value : Option String}
    (hname : ∀ m ∈ standardMentions, m.1 ≠ name)
    (hmentions : Cli.mentionsOf c.options name = given? name value) :
    (entries behind).value? name = value := by
  rw [value?_entries, h.mentionsOf hname, hmentions]
  cases value <;> rfl

/-- An option with a standard value may be left out if it is mentioned with
that one. -/
theorem Command.GivenBy.value?_standard {α : Type} {name word : String} {read : String → Option α}
    {a standard : α} (hname : name ≠ "config")
    (hmentions : Cli.mentionsOf c.options name = [(name, some word)]) (hword : read word = some a)
    (hstandard : (name, some word) ∈ standardMentions → a = standard) :
    (((entries behind).value? name).bind read).getD standard = a := by
  have hbehind := h.mentions name hname
  rw [hmentions] at hbehind
  rw [value?_entries]
  rcases List.append_eq_singleton_iff.mp hbehind with ⟨hnone, hleft⟩ | ⟨hone, -⟩
  · have hmem : (name, some word) ∈ Cli.mentionsOf left name := by simp [hleft]
    simpa [hnone] using (hstandard (h.standard _ (mem_mentionsOf.mp hmem).1)).symm
  · simp [hone, Mention.entry, hword]

end

/-- A command is made of what it mentions. -/
theorem Command.GivenBy.made {c : Command} {behind left : List Mention}
    (h : c.GivenBy behind left) (hwritable : c.IsWritable) : c.made (entries behind) = .ok c := by
  cases c
  all_goals
    simp only [Command.made, Command.name, commands, List.lookup_cons, String.reduceBEq,
      Option.map_some, Option.getD_some, Given.required]
  case waitMarker taskRun lifecycleDir timeoutSecs =>
    have hrun : (entries behind).value? "task-run-id" = some taskRun :=
      h.value? (by decide) (by simp [options])
    have hdir : (entries behind).value? "lifecycle-dir" = lifecycleDir :=
      h.value? (by decide) (by simp [options])
    have htimeout : (entries behind).value? "timeout-secs" =
        timeoutSecs.map fun n => Text.decimal n.toNat :=
      h.value? (by decide) (by simp [options])
    rw [hrun, hdir, htimeout, bind_decimal]
    rfl
  case waitTelemetry taskRun target logPath timeoutSecs =>
    have hrun : (entries behind).value? "task-run-id" = some taskRun :=
      h.value? (by decide) (by simp [options])
    have htarget : (((entries behind).value? "until").bind fun w => WaitTarget.words.lookup w).getD
        .agentFinish = target :=
      h.value?_standard (by decide) (by simp [options]) (lookup_targetWord target)
        (by cases target <;> decide)
    have hlog : (entries behind).value? "log-path" = logPath :=
      h.value? (by decide) (by simp [options])
    have htimeout : (entries behind).value? "timeout-secs" =
        timeoutSecs.map fun n => Text.decimal n.toNat :=
      h.value? (by decide) (by simp [options])
    rw [hrun, htarget, hlog, htimeout, bind_decimal]
    rfl
  case tailTelemetry taskRun logPath untilFinish =>
    have hrun : (entries behind).value? "task-run-id" = some taskRun :=
      h.value? (by decide) (by cases untilFinish <;> simp [options])
    have hlog : (entries behind).value? "log-path" = logPath :=
      h.value? (by decide) (by cases untilFinish <;> simp [options])
    have hfinish : (entries behind).has "until-finish" = untilFinish := by
      rw [has_entries, h.mentionsOf (by decide)]
      cases untilFinish <;> simp [options]
    rw [hrun, hlog, hfinish]
    rfl
  case registerToken user token bundle environment =>
    have huser : (entries behind).value? "user" = some user :=
      h.value? (by decide) (by simp [options])
    have htoken : (entries behind).value? "token" = some token :=
      h.value? (by decide) (by simp [options])
    have hbundle : (entries behind).value? "bundle-id" = some bundle :=
      h.value? (by decide) (by simp [options])
    have htier : (((entries behind).value? "environment").bind fun s =>
        (Environment.parse s).toOption).getD Environment.standard = environment :=
      h.value?_standard (by decide) (by simp [options])
        (read_environmentWord environment) (by cases environment <;> decide)
    rw [huser, htoken, hbundle, htier]
    rfl
  case notify user title body data =>
    have huser : (entries behind).value? "user" = some user :=
      h.value? (by decide) (by simp [options])
    have htitle : (entries behind).value? "title" = some title :=
      h.value? (by decide) (by simp [options])
    have hbody : (entries behind).value? "body" = some body :=
      h.value? (by decide) (by simp [options])
    have hdata : (entries behind).values "data" =
        data.map fun entry => entry.1 ++ "=" ++ entry.2 := by
      rw [values_entries, h.mentionsOf (by decide)]
      simp [options, Mention.entry]
    rw [huser, htitle, hbody, hdata, filterMap_parseEntry hwritable]
    rfl
  case notifyRun user taskRun outcome title error =>
    have huser : (entries behind).value? "user" = some user :=
      h.value? (by decide) (by simp [options])
    have hrun : (entries behind).value? "task-run-id" = some taskRun :=
      h.value? (by decide) (by simp [options])
    have houtcome : (((entries behind).value? "outcome").bind fun w => RunEnd.words.lookup w).getD
        .completed = outcome :=
      h.value?_standard (by decide) (by simp [options]) (lookup_endWord outcome)
        (by cases outcome <;> decide)
    have htitle : (entries behind).value? "title" = title :=
      h.value? (by decide) (by simp [options])
    have herror : (entries behind).value? "error" = error :=
      h.value? (by decide) (by simp [options])
    rw [huser, hrun, houtcome, htitle, herror]
    rfl

/-! ## §4 Arguments -/

/-- The arguments with some mentions before the name of the command and some
behind it. -/
def Invocation.spelled (i : Invocation) (before behind : List Mention) : List String :=
  before.map Mention.text ++ i.command.name :: behind.map Mention.text

theorem Invocation.mentionsOf_config (i : Invocation) :
    mentionsOf i.options "config" = [("config", some i.config)] := by
  have hnone : mentionsOf i.command.options "config" = [] := by
    refine mentionsOf_eq_nil fun m hm heq => ?_
    have hrepeated := (List.pairwise_cons.mp i.distinct_options).1 m hm heq.symm
    exact absurd (heq.symm.trans hrepeated) (by decide)
  simp [options, hnone]

section

variable {i : Invocation} {before behind left : List Mention} (h : i.Mentions before behind left)

include h

theorem Invocation.Mentions.distinct : Distinct before ∧ Distinct behind := by
  have hall : Distinct (before ++ behind ++ left) := by
    refine (h.all.pairwise_iff ?_).mpr i.distinct_options
    intro m m' hrepeated heq
    exact heq ▸ hrepeated heq.symm
  have hwritten := (List.pairwise_append.mp hall).1
  exact ⟨(List.pairwise_append.mp hwritten).1, (List.pairwise_append.mp hwritten).2.1⟩

theorem Invocation.Mentions.eq_config {m : Mention} (hm : m ∈ before) :
    m = ("config", some i.config) := by
  have hmem : m ∈ Cli.mentionsOf i.options "config" :=
    mem_mentionsOf.mpr ⟨h.all.mem_iff.mp (by simp [hm]), h.before m hm⟩
  rw [i.mentionsOf_config] at hmem
  exact List.mem_singleton.mp hmem

theorem Invocation.Mentions.config :
    (((entries behind).value? "config").orElse fun _ => (entries before).value? "config").getD
      standardConfig = i.config := by
  have hmentions := h.mentionsOf "config"
  rw [i.mentionsOf_config] at hmentions
  rw [value?_entries, value?_entries]
  rcases List.append_eq_singleton_iff.mp hmentions with ⟨hnone, hleft⟩ | ⟨hwritten, -⟩
  · obtain ⟨hbefore, hbehind⟩ := List.append_eq_nil_iff.mp hnone
    have hmem : ("config", some i.config) ∈ Cli.mentionsOf left "config" := by simp [hleft]
    have hstandard := h.left _ (mem_mentionsOf.mp hmem).1
    have hconfig : i.config = standardConfig := by simpa [standardMentions] using hstandard
    simp [hbefore, hbehind, hconfig]
  · rcases List.append_eq_singleton_iff.mp hwritten with ⟨hbefore, hbehind⟩ | ⟨hbefore, hbehind⟩
    · simp [hbehind, Mention.entry]
    · simp [hbefore, hbehind, Mention.entry]

theorem Invocation.Mentions.takes (hconfig : i.config ≠ "") (hwritable : i.command.IsWritable) :
    ∀ m ∈ behind, (commandLevel i.command.specs).Takes m := by
  intro m hm
  have hregular : (commandLevel i.command.specs).IsRegular :=
    commandLevel_regular _ i.command.mem_commands
  have hmem : m ∈ i.options := h.all.mem_iff.mp (by simp [hm])
  rcases List.mem_cons.mp hmem with rfl | hmem
  · exact hregular.takes (o := configOption) (by simp [commandLevel]) (pathOption_carries _ hconfig)
  · obtain ⟨o, ho, hname, hcarries⟩ := Command.exists_carries hwritable m hmem
    have htakes := hregular.takes (o := o) (by simp [commandLevel, ho]) hcarries
    rwa [hname] at htakes

theorem Invocation.Mentions.parse_spelled (hconfig : i.config ≠ "")
    (hwritable : i.command.IsWritable) : parse (i.spelled before behind) = .ok i := by
  have hname : topLevel.commands.contains i.command.name = true := by
    simpa [topLevel] using .inl ⟨_, _, i.command.mem_commands⟩
  have htop : topLevel.scan .start (i.spelled before behind) =
      .ok (.after before, some (i.command.name, behind.map Mention.text)) := by
    have htakes : ∀ m ∈ before, topLevel.Takes m := fun m hm =>
      h.eq_config hm ▸ topLevel_regular.takes (o := configOption) (by simp [topLevel])
        (pathOption_carries _ hconfig)
    rw [spelled, Level.scan_start head?_commands htakes h.distinct.1, Level.scan, hname]
    rfl
  have hbehind : parseBehind i.command.specs (behind.map Mention.text) = .ok (entries behind) := by
    have hcommands : ∀ c ∈ (commandLevel i.command.specs).commands, c.toList.head? ≠ some '-' :=
      fun c hc => (List.not_mem_nil hc).elim
    have hscan := Level.scan_start hcommands (h.takes hconfig hwritable) h.distinct.2 []
    rw [List.append_nil] at hscan
    rw [parseBehind, hscan]
    rfl
  have hmade := h.givenBy.made hwritable
  have hbefore : (Progress.after before).settlePending = .ok (entries before) := rfl
  have hsame : (((entries behind).value? configOption.name).orElse fun _ =>
      (entries before).value? configOption.name).getD standardConfig = i.config := h.config
  simp only [parse, htop, bind, Except.bind, i.command.lookup_commands, hbehind, hmade, hbefore,
    hsame]
  rfl

end

/-- **Every command can be written down and is read back.** Whatever its texts
are, an invocation is read back from its arguments, and also if its mentions
stand in another order, the one of the configuration file on either side of the
name, or if any of those with standard values are left out. -/
theorem Invocation.read_back {i : Invocation} (hconfig : i.config ≠ "")
    (hwritable : i.command.IsWritable) :
    parse i.arguments = .ok i ∧
    ∀ before behind left, i.Mentions before behind left →
      parse (i.spelled before behind) = .ok i := by
  refine ⟨?_, fun before behind left h => h.parse_spelled hconfig hwritable⟩
  have hmentions : i.Mentions [("config", some i.config)] i.command.options [] :=
    ⟨by simp [options], by simp, nofun, by simp [options]⟩
  exact hmentions.parse_spelled hconfig hwritable

/-- A notification whose texts look like options, with entries under one key. -/
def dashedNotice : Invocation :=
  ⟨"-c=d", .notify "-u" "--body=x" "a b=c" [("k", "v=w"), ("k", "--")]⟩

/-- An order in which it can be mentioned. -/
def dashedMentions : List Mention :=
  [("data", some "k=v=w"), ("body", some "a b=c"), ("config", some "-c=d"), ("user", some "-u"),
   ("data", some "k=--"), ("title", some "--body=x")]

/-- A command that is given as little as can be. -/
def plainWait : Invocation := ⟨standardConfig, .waitTelemetry "--" .agentFinish none none⟩

theorem dashedNotice_read_back :
    parse ["notify", "--data=k=v=w", "--body=a b=c", "--config=-c=d", "--user=-u", "--data=k=--",
      "--title=--body=x"] = .ok dashedNotice ∧
    parse ["wait-telemetry", "--task-run-id=--"] = .ok plainWait := by
  constructor
  · have hwritable : dashedNotice.command.IsWritable := by
      have hkey : IsKey "k" := ⟨by decide, by decide, by decide⟩
      rintro entry (_ | ⟨_, _ | ⟨_, ⟨⟩⟩⟩) <;> exact hkey
    have hmentions : dashedNotice.Mentions [] dashedMentions [] :=
      ⟨by decide +kernel, nofun, nofun, by decide +kernel⟩
    exact (Invocation.read_back (by decide) hwritable).2 _ _ _ hmentions
  · have hmentions : plainWait.Mentions [] [("task-run-id", some "--")]
        [("config", some standardConfig), ("until", some "agent-finish")] :=
      ⟨by decide +kernel, nofun, by decide +kernel, by decide +kernel⟩
    have hwritable : plainWait.command.IsWritable := by simp [plainWait, Command.IsWritable]
    exact (Invocation.read_back (by decide) hwritable).2 _ _ _ hmentions

end Runwatch.Cli
