/-
Runwatch.Proofs.Cli.Scanning — options that carry their values are entered as
they stand.

A `Mention` is an option with the value that it carries, as it stands in an
argument. Scanning mentions that a level takes enters them one by one, up to a
command or the end of the arguments: nothing waits for the next argument, so
that a value is never taken for an option or for a command, whatever it begins
with.

  §1 Texts   — an argument or an entry, cut at its first equals sign.
  §2 Entries — what was given, seen from the mentions.
  §3 Levels  — `read_mention` and, for a whole run, `scan_mentions`.
-/
import Mathlib.Data.List.Nodup
import Runwatch.Cli.Arguments
import Runwatch.Proofs.Text.Blank

namespace Runwatch.Cli

/-! ## §1 Texts -/

theorem cutAtSign_append {cs : List Char} (h : '=' ∉ cs) (rest : List Char) :
    cutAtSign (cs ++ '=' :: rest) = some (cs, rest) := by
  have hall : ∀ c ∈ cs, (c != '=') = true := by
    intro c hc
    simpa using fun heq : c = '=' => h (heq ▸ hc)
  rw [cutAtSign, List.dropWhile_append_of_pos hall, List.takeWhile_append_of_pos hall]
  simp

theorem cutAtSign_eq_none {cs : List Char} (h : '=' ∉ cs) : cutAtSign cs = none := by
  have hnone : cs.dropWhile (· != '=') = [] := by
    rw [List.dropWhile_eq_nil_iff]
    intro c hc
    simpa using fun heq : c = '=' => h (heq ▸ hc)
  rw [cutAtSign, hnone]

/-- A key that is read back from an entry: not empty, without an equals sign,
and without a blank at either end. -/
structure IsKey (key : String) : Prop where
  nonempty : key ≠ ""
  noSign : '=' ∉ key.toList
  tight : Text.Tight key.toList

/-- The first equals sign ends the key, whatever the value is. -/
theorem IsKey.parseEntry {key : String} (h : IsKey key) (value : String) :
    parseEntry (key ++ "=" ++ value) = .ok (key, value) := by
  have hchars : (key ++ "=" ++ value).toList = key.toList ++ '=' :: value.toList := by
    simp [String.toList_append]
  have hne : key.toList ≠ [] := by simpa using h.nonempty
  have htrims : Text.TrimsTo key key.toList :=
    ⟨h.tight, [], [], nofun, nofun, by rw [List.nil_append, List.append_nil]⟩
  simp only [Cli.parseEntry, hchars, cutAtSign_append h.noSign, String.ofList_toList,
    htrims.nonBlank?, if_neg hne]

/-- The name of an option: not empty and without an equals sign. -/
def IsName (name : String) : Prop := name.toList ≠ [] ∧ '=' ∉ name.toList

instance (name : String) : Decidable (IsName name) := inferInstanceAs (Decidable (_ ∧ _))

theorem Argument.ofText_optionText {name : String} (h : IsName name) (value : Option String) :
    ofText (optionText name value) = .long name value := by
  obtain ⟨hne, hsign⟩ := h
  obtain ⟨c, cs, hname⟩ := List.exists_cons_of_ne_nil hne
  have hback : String.ofList (c :: cs) = name := by rw [← hname, String.ofList_toList]
  rw [hname] at hsign
  cases value with
  | none =>
    have hchars : (optionText name none).toList = '-' :: '-' :: c :: cs := by
      simp [optionText, String.toList_append, hname]
    simp only [ofText, hchars, cutAtSign_eq_none hsign, hback]
  | some value =>
    have hchars : (optionText name (some value)).toList =
        '-' :: '-' :: c :: (cs ++ '=' :: value.toList) := by
      simp [optionText, String.toList_append, hname]
    have hcut := cutAtSign_append hsign value.toList
    rw [List.cons_append] at hcut
    simp only [ofText, hchars, hcut, hback, String.ofList_toList]

/-! ## §2 Entries -/

/-- An option with the value that it carries. -/
abbrev Mention := String × Option String

/-- The argument that a mention is. -/
def Mention.text (m : Mention) : String := optionText m.1 m.2

/-- What a mention is entered as. -/
def Mention.entry (m : Mention) : String × String := (m.1, m.2.getD "")

/-- The mentions of one option, in order. -/
def mentionsOf (ms : List Mention) (name : String) : List Mention := ms.filter (·.1 == name)

@[simp] theorem mentionsOf_nil (name : String) : mentionsOf [] name = [] := rfl

@[simp] theorem mentionsOf_cons (m : Mention) (ms : List Mention) (name : String) :
    mentionsOf (m :: ms) name = if m.1 = name then m :: mentionsOf ms name
      else mentionsOf ms name := by
  simp [mentionsOf, List.filter_cons]

@[simp] theorem mentionsOf_append (ms ms' : List Mention) (name : String) :
    mentionsOf (ms ++ ms') name = mentionsOf ms name ++ mentionsOf ms' name :=
  List.filter_append ..

theorem mem_mentionsOf {m : Mention} {ms : List Mention} {name : String} :
    m ∈ mentionsOf ms name ↔ m ∈ ms ∧ m.1 = name := by
  simp [mentionsOf]

theorem mentionsOf_eq_nil {ms : List Mention} {name : String} (h : ∀ m ∈ ms, m.1 ≠ name) :
    mentionsOf ms name = [] :=
  List.filter_eq_nil_iff.mpr (by simpa using h)

/-- The mentions as they are entered. -/
def entries (ms : List Mention) : Given := ms.map Mention.entry

theorem filter_entries (ms : List Mention) (name : String) :
    (entries ms).filter (·.1 == name) = (mentionsOf ms name).map Mention.entry :=
  List.filter_map

theorem has_entries (ms : List Mention) (name : String) :
    (entries ms).has name = !(mentionsOf ms name).isEmpty := by
  rw [Given.has, entries, List.any_map]
  induction ms with
  | nil => rfl
  | cons m ms ih =>
    rw [mentionsOf_cons, List.any_cons, ih]
    by_cases h : m.1 = name <;> simp [Mention.entry, h]

theorem value?_entries (ms : List Mention) (name : String) :
    (entries ms).value? name = (mentionsOf ms name).head?.map (·.entry.2) := by
  induction ms with
  | nil => rfl
  | cons m ms ih =>
    rw [mentionsOf_cons]
    by_cases h : m.1 = name
    · simp [entries, Given.value?, Mention.entry, h]
    · have hne : (name == m.1) = false := by simpa using Ne.symm h
      simpa [entries, Given.value?, Mention.entry, h, List.lookup_cons, hne] using ih

theorem values_entries (ms : List Mention) (name : String) :
    (entries ms).values name = (mentionsOf ms name).map (·.entry.2) := by
  rw [Given.values, filter_entries, List.map_map]
  rfl

/-! ## §3 Levels -/

/-- The one option that may be repeated. -/
def repeatedName : String := "data"

/-- No option is mentioned twice, but the one that may be repeated. -/
def Distinct (ms : List Mention) : Prop :=
  ms.Pairwise fun m m' => m.1 = m'.1 → m'.1 = repeatedName

/-- What an option carries: a flag nothing, any other option a value that it
takes. -/
inductive OptionSpec.Carries (o : OptionSpec) : Option String → Prop
  | flag (hkind : o.kind = .flag) : o.Carries none
  | value {value : String} (hkind : o.kind ≠ .flag) (hcheck : o.check value = .ok ()) :
    o.Carries (some value)

/-- A mention of an option of a level, carrying what that option carries. -/
structure Level.Takes (l : Level) (m : Mention) : Prop where
  name : IsName m.1
  question : l.question? m.1 none = none
  option : ∃ o, l.option? m.1 = some o ∧ o.Carries m.2 ∧ (m.1 = repeatedName → o.kind = .repeated)

/-- A level whose options have different names, none of which asks a question.
The one that may be repeated takes a value each time, where it is there. -/
def Level.IsRegular (l : Level) : Prop :=
  (l.options.map (·.name)).Nodup ∧ ∀ o ∈ l.options, IsName o.name ∧
    l.question? o.name none = none ∧ (o.name = repeatedName → o.kind = .repeated)

instance (l : Level) : Decidable l.IsRegular := inferInstanceAs (Decidable (_ ∧ _))

theorem Level.IsRegular.takes {l : Level} (h : l.IsRegular) {o : OptionSpec} (ho : o ∈ l.options)
    {value : Option String} (hcarries : o.Carries value) : l.Takes (o.name, value) := by
  obtain ⟨hname, hquestion, hrepeated⟩ := h.2 o ho
  refine ⟨hname, hquestion, o, ?_, hcarries, hrepeated⟩
  cases hfound : l.option? o.name with
  | none => simpa using List.find?_eq_none.mp hfound o ho
  | some o' =>
    have hsame : o'.name = o.name := by simpa using List.find?_some hfound
    rw [List.inj_on_of_nodup_map h.1 (List.mem_of_find?_eq_some hfound) ho hsame]

/-- How far arguments are read that are mentions. -/
def Progress.after (ms : List Mention) : Progress := ⟨entries ms, none, false, false⟩

theorem settle_carried {o : OptionSpec} {value : Option String} {g : Given}
    (hcarries : o.Carries value) (hfresh : o.kind ≠ .repeated → g.has o.name = false) :
    settle o value g = .ok (g ++ [(o.name, value.getD "")]) := by
  have hagain : (o.kind != .repeated && g.has o.name) = false := by
    by_cases h : o.kind = .repeated
    · simp [h]
    · simp [hfresh h]
  cases hcarries with
  | flag hkind =>
    simp only [settle, hagain]
    simp [hkind]
  | value hkind hcheck =>
    simp only [settle, hagain, hcheck]
    cases h : o.kind with
    | flag => exact absurd h hkind
    | once | repeated => rfl

/-- An option that carries what it must is settled at once. -/
theorem Level.readLong_carried {l : Level} {o : OptionSpec} {name : String} {value : Option String}
    (hquestion : l.question? name none = none) (hoption : l.option? name = some o)
    (hcarries : o.Carries value) (g : Given) :
    l.readLong ⟨g, none, false, false⟩ name value =
      (settle o value g).map fun given => ⟨given, none, false, false⟩ := by
  unfold readLong
  cases hcarries with
  | flag hkind =>
    simp only [hquestion, hoption, hkind]
    rfl
  | value hkind hcheck =>
    simp only [hquestion, hoption, beq_eq_false_iff_ne.mpr hkind]
    rfl

section

variable {l : Level} {done : List Mention}

/-- One mention that a level takes is entered, unless its option was mentioned
before and may not be repeated. -/
theorem Level.read_mention {m : Mention} (htakes : l.Takes m)
    (hfresh : ∀ d ∈ done, d.1 = m.1 → m.1 = repeatedName) :
    l.read (.after done) m.text = .ok (.after (done ++ [m])) := by
  obtain ⟨hname, hquestion, o, hoption, hcarries, hrepeated⟩ := htakes
  have honame : o.name = m.1 := by simpa using List.find?_some hoption
  have hnone : o.kind ≠ .repeated → (entries done).has o.name = false := by
    intro honce
    have hnone : mentionsOf done m.1 = [] :=
      mentionsOf_eq_nil fun d hd heq => honce (hrepeated (hfresh d hd heq))
    rw [has_entries, honame, hnone]
    rfl
  calc l.read (.after done) m.text
      = l.readLong (.after done) m.1 m.2 := by
        simp only [Level.read, Progress.after, Mention.text, Argument.ofText_optionText hname]
        rfl
    _ = (settle o m.2 (entries done)).map fun given => ⟨given, none, false, false⟩ :=
        readLong_carried hquestion hoption hcarries _
    _ = .ok (.after (done ++ [m])) := by
        rw [settle_carried hcarries hnone, honame, Progress.after, entries, entries,
          List.map_append]
        rfl

theorem Level.contains_mention (hcommands : ∀ c ∈ l.commands, c.toList.head? ≠ some '-')
    (m : Mention) : l.commands.contains m.text = false := by
  by_contra h
  refine hcommands m.text (by simpa using h) ?_
  simp [Mention.text, optionText, String.toList_append]

/-- Mentions that a level takes are entered in their order, and the arguments
behind them are scanned. -/
theorem Level.scan_mentions {ms : List Mention}
    (hcommands : ∀ c ∈ l.commands, c.toList.head? ≠ some '-') (htakes : ∀ m ∈ ms, l.Takes m)
    (hdistinct : Distinct (done ++ ms)) (rest : List String) :
    l.scan (.after done) (ms.map Mention.text ++ rest) = l.scan (.after (done ++ ms)) rest := by
  induction ms generalizing done with
  | nil => rw [List.append_nil, List.map_nil, List.nil_append]
  | cons m ms ih =>
    have hfresh : ∀ d ∈ done, d.1 = m.1 → m.1 = repeatedName := fun d hd =>
      (List.pairwise_append.mp hdistinct).2.2 d hd m List.mem_cons_self
    have hstep := read_mention (htakes m List.mem_cons_self) hfresh
    rw [List.append_cons] at hdistinct ⊢
    rw [← ih (fun m' hm' => htakes m' (List.mem_cons_of_mem m hm')) hdistinct, List.map_cons,
      List.cons_append, scan, contains_mention hcommands, Bool.and_false, if_neg Bool.false_ne_true,
      hstep]
    rfl

theorem Level.scan_start {ms : List Mention}
    (hcommands : ∀ c ∈ l.commands, c.toList.head? ≠ some '-') (htakes : ∀ m ∈ ms, l.Takes m)
    (hdistinct : Distinct ms) (rest : List String) :
    l.scan .start (ms.map Mention.text ++ rest) = l.scan (.after ms) rest :=
  have hnothing : Distinct ([] ++ ms) := hdistinct
  scan_mentions hcommands htakes hnothing rest

end

end Runwatch.Cli
