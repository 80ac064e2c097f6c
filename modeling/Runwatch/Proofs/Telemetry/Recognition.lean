/-
Runwatch.Proofs.Telemetry.Recognition — which objects are completion events,
and which events they are.

What is said of an object here is said of the values in it: where its
attributes stand, which name is found in them, which words that name can
spell, and how a field can be written. `classify` finds an event exactly
where one is written in this sense, and it finds the event that is written.

  §1 Names   — the spellings of a kind (`Spells`).
  §2 Places  — where an object has its fields and its name (`StandsIn`,
               `Named`).
  §3 Reading — what is recognised, and by which values
               (`classify_eq_completion_iff`, `classify_recognizes_exactly`).
  §4 Writing — an event that is written is recognised
               (`classify_of_written`).
-/
import Mathlib.Data.List.Forall2
import Runwatch.Proofs.Text.Blank
import Runwatch.Telemetry.Event

namespace Runwatch.Telemetry

open Json (Members Value)
open Text (Blanks Solid)

/-! ## §1 Names -/

/-- `spelled` is `word` with some of its underscores written as dots. -/
def Dotted (word spelled : List Char) : Prop :=
  List.Forall₂ (fun w s => s = w ∨ w = '_' ∧ s = '.') word spelled

/-- A name spells a kind: the word of the kind, some of its underscores
written as dots, stands in it between blanks, with or without the namespace
in front. -/
def Spells (k : CompletionKind) (name : String) : Prop :=
  ∃ left space bare right, Blanks left ∧ Blanks right ∧ (space = [] ∨ space = namespaceWord) ∧
    Dotted k.word.toList bare ∧ name.toList = left ++ (space ++ bare) ++ right

/-- How names are compared: a dot is as good as an underscore. -/
def folded (c : Char) : Char := if c == '.' then '_' else c

theorem folded_eq_iff {w : Char} (hw : w ≠ '.') (s : Char) :
    folded s = w ↔ s = w ∨ w = '_' ∧ s = '.' := by
  by_cases hs : s = '.'
  · simp [folded, hs, hw.symm, eq_comm]
  · simp [folded, hs]

/-- The spellings with dots are those that are folded to the word. -/
theorem dotted_iff {word : List Char} (hword : '.' ∉ word) (spelled : List Char) :
    Dotted word spelled ↔ spelled.map folded = word := by
  induction word generalizing spelled with
  | nil => simp [Dotted]
  | cons w word ih =>
    obtain ⟨hw, hword⟩ := not_or.mp fun h => hword (List.mem_cons.mpr h)
    have hrest := ih hword
    cases spelled with
    | nil => simp [Dotted]
    | cons s spelled =>
      rw [Dotted, List.forall₂_cons, ← Dotted, hrest, List.map_cons, List.cons.injEq,
        folded_eq_iff (Ne.symm hw)]

/-- No word of a kind has a dot or a blank in it, or begins as the namespace
does. -/
theorem word_plain (k : CompletionKind) :
    '.' ∉ k.word.toList ∧ Solid k.word.toList ∧ ¬ namespaceWord.map folded <+: k.word.toList := by
  cases k <;> decide

theorem isBlank_folded (c : Char) : Text.isBlank (folded c) = Text.isBlank c := by
  by_cases hc : c = '.'
  · rw [hc]
    rfl
  · simp [folded, hc]

/-- No spelling has a blank in it. -/
theorem Dotted.solid {k : CompletionKind} {bare : List Char} (h : Dotted k.word.toList bare) :
    Solid bare := by
  obtain ⟨hdot, hsolid, -⟩ := word_plain k
  intro c hc
  rw [← isBlank_folded]
  exact hsolid _ ((dotted_iff hdot bare).mp h ▸ List.mem_map_of_mem hc)

/-- No spelling begins with the namespace, so that it is removed once at
most. -/
theorem Dotted.dropNamespace {k : CompletionKind} {space bare : List Char}
    (hspace : space = [] ∨ space = namespaceWord) (h : Dotted k.word.toList bare) :
    dropNamespace (space ++ bare) = bare := by
  rcases hspace with rfl | rfl
  · obtain ⟨hdot, -, hnone⟩ := word_plain k
    have hbare : ¬ namespaceWord.isPrefixOf bare = true := fun hprefix =>
      hnone ((dotted_iff hdot bare).mp h ▸ (List.isPrefixOf_iff_prefix.mp hprefix).map folded)
    rw [List.nil_append, Telemetry.dropNamespace, if_neg hbare]
  · have hfront : namespaceWord.isPrefixOf (namespaceWord ++ bare) = true :=
      List.isPrefixOf_iff_prefix.mpr (List.prefix_append _ _)
    rw [Telemetry.dropNamespace, if_pos hfront, List.drop_left]

/-- What is left of a name without the namespace. -/
theorem exists_dropNamespace (cs : List Char) :
    ∃ space, (space = [] ∨ space = namespaceWord) ∧ cs = space ++ dropNamespace cs := by
  unfold dropNamespace
  split
  case isTrue h =>
    obtain ⟨rest, rfl⟩ := List.isPrefixOf_iff_prefix.mp h
    exact ⟨namespaceWord, .inr rfl, by rw [List.drop_left]⟩
  case isFalse => exact ⟨[], .inl rfl, rfl⟩

theorem normalizeName_eq (name : String) :
    normalizeName name =
      String.ofList ((dropNamespace (Text.trimBlanks name.toList)).map folded) := rfl

/-- The names that are read as a kind are those that spell it. -/
theorem spells_iff (k : CompletionKind) (name : String) :
    Spells k name ↔ k.word = normalizeName name := by
  have hdot := (word_plain k).1
  rw [normalizeName_eq, ← String.toList_inj, String.toList_ofList, eq_comm (a := k.word.toList)]
  constructor
  · rintro ⟨left, space, bare, right, hleft, hright, hspace, hbare, hname⟩
    have hfront : Solid space := by
      rcases hspace with rfl | rfl <;> decide
    have hsolid : Solid (space ++ bare) := List.forall_mem_append.mpr ⟨hfront, hbare.solid⟩
    rw [hname, hsolid.trimBlanks hleft hright, hbare.dropNamespace hspace]
    exact (dotted_iff hdot bare).mp hbare
  · intro h
    obtain ⟨left, right, hleft, hright, hname⟩ := Text.exists_trimBlanks name.toList
    obtain ⟨space, hspace, hcore⟩ := exists_dropNamespace (Text.trimBlanks name.toList)
    exact ⟨left, space, _, right, hleft, hright, hspace, (dotted_iff hdot _).mpr h, hcore ▸ hname⟩

/-- Different kinds have different words. -/
theorem find?_word_eq_some_iff (word : String) (k : CompletionKind) :
    CompletionKind.all.find? (·.word == word) = some k ↔ k.word = word := by
  constructor
  · intro h
    simpa using List.find?_some h
  · rintro rfl
    cases k <;> decide

/-! ## §2 Places -/

/-- The value that is reached by the names of a path. -/
def at? (v : Value) : List String → Option Value
  | [] => some v
  | name :: path => (v.member? name).bind fun w => at? w path

/-- Where attributes can stand, in the order in which they are looked for. -/
def attributePaths : List (List String) :=
  [["resource", "attributes"], ["body", "attributes"], ["attributes"]]

/-- An object stands at one of the paths, and none at a path before it. -/
def IsFirstAt (paths : List (List String)) (v : Value) (ms : Members) : Prop :=
  ∃ earlier path later, paths = earlier ++ path :: later ∧
    at? v path = some (.object ms) ∧ ∀ other ∈ earlier, ∀ ns, at? v other ≠ some (.object ns)

/-- The attributes of an object. -/
def HasAttributes (v : Value) (ms : Members) : Prop := IsFirstAt attributePaths v ms

/-- Where the fields of an object stand: in its attributes, or else in the
object itself. -/
def StandsIn (v : Value) (fields : Members) : Prop := IsFirstAt (attributePaths ++ [[]]) v fields

/-- The name that members give: the text under `event.name`, or if there is
no such member the one under `event_name`. -/
def NamedIn (ms : Members) (name : String) : Prop :=
  Members.get? ms "event.name" = some (.string name) ∨
    Members.get? ms "event.name" = none ∧ Members.get? ms "event_name" = some (.string name)

/-- The name of an object: the one that its attributes give, or else the one
that the object itself gives. -/
def Named (v : Value) (name : String) : Prop :=
  (∃ ms, HasAttributes v ms ∧ NamedIn ms name) ∨
    (∀ ms other, HasAttributes v ms → ¬ NamedIn ms other) ∧
      ∃ ms, v = .object ms ∧ NamedIn ms name

theorem members?_eq_some_iff {v : Value} {ms : Members} :
    v.members? = some ms ↔ v = .object ms := by
  cases v <;> simp [Value.members?]

theorem text?_eq_some_iff {v : Value} {s : String} : v.text? = some s ↔ v = .string s := by
  cases v <;> simp [Value.text?]

/-- The object at a path. -/
def objectAt? (v : Value) (path : List String) : Option Members :=
  (at? v path).bind Value.members?

theorem isFirstAt_iff (paths : List (List String)) (v : Value) (ms : Members) :
    IsFirstAt paths v ms ↔ paths.findSome? (objectAt? v) = some ms := by
  have hobject : ∀ path ns, objectAt? v path = some ns ↔ at? v path = some (.object ns) := by
    intro path ns
    simp [objectAt?, Option.bind_eq_some_iff, members?_eq_some_iff]
  have hnone : ∀ path, objectAt? v path = none ↔ ∀ ns, at? v path ≠ some (.object ns) := by
    intro path
    simp [Option.eq_none_iff_forall_ne_some, hobject]
  simp only [List.findSome?_eq_some_iff, hobject, hnone, IsFirstAt]

theorem objectAt?_below (v : Value) (name : String) :
    objectAt? v [name, "attributes"] = attributesBelow name v := by
  simp only [objectAt?, at?, attributesBelow, Option.bind_assoc, Option.bind_some]

theorem findSome?_attributePaths (v : Value) :
    attributePaths.findSome? (objectAt? v) = attributes? v := by
  have hlast : objectAt? v ["attributes"] = (v.member? "attributes").bind Value.members? := by
    simp only [objectAt?, at?, Option.bind_assoc, Option.bind_some]
  simp only [attributePaths, List.findSome?_cons, objectAt?_below, hlast, attributes?,
    List.findSome?_nil]
  cases attributesBelow "resource" v <;> cases attributesBelow "body" v <;>
    cases (v.member? "attributes").bind Value.members? <;> rfl

theorem hasAttributes_iff (v : Value) (ms : Members) :
    HasAttributes v ms ↔ attributes? v = some ms := by
  rw [HasAttributes, isFirstAt_iff, findSome?_attributePaths]

theorem standsIn_iff (v : Value) (fields : Members) :
    StandsIn v fields ↔ ((attributes? v).orElse fun _ => v.members?) = some fields := by
  rw [StandsIn, isFirstAt_iff, List.findSome?_append, findSome?_attributePaths]
  have htop : List.findSome? (objectAt? v) [[]] = v.members? := by
    cases v <;> rfl
  rw [htop]
  cases attributes? v <;> simp

theorem namedIn_iff (ms : Members) (name : String) : NamedIn ms name ↔ rawName? ms = some name := by
  unfold NamedIn rawName?
  cases Members.get? ms "event.name" with
  | none => simp [Option.bind_eq_some_iff, text?_eq_some_iff]
  | some v => simp [text?_eq_some_iff]

theorem named_iff (v : Value) (name : String) :
    Named v name ↔ (((attributes? v).bind rawName?).orElse fun _ => v.members?.bind rawName?) =
      some name := by
  have hinner : ∀ n, (attributes? v).bind rawName? = some n ↔
      ∃ ms, HasAttributes v ms ∧ NamedIn ms n := by
    intro n
    simp [Option.bind_eq_some_iff, hasAttributes_iff, namedIn_iff]
  have houter : ∀ n, v.members?.bind rawName? = some n ↔
      ∃ ms, v = .object ms ∧ NamedIn ms n := by
    intro n
    simp [Option.bind_eq_some_iff, members?_eq_some_iff, namedIn_iff]
  rw [Named, ← hinner, ← houter]
  cases h : (attributes? v).bind rawName? with
  | none =>
    have hnone : ∀ ms other, HasAttributes v ms → ¬ NamedIn ms other := fun ms other hms hname =>
      nomatch h.symm.trans ((hinner other).mpr ⟨ms, hms, hname⟩)
    simpa using fun _ => hnone
  | some n =>
    obtain ⟨ms, hms, hname⟩ := (hinner n).mp h
    have hsome : ¬ ∀ ms other, HasAttributes v ms → ¬ NamedIn ms other := fun hall =>
      hall ms n hms hname
    simp [hsome]

/-! ## §3 Reading -/

/-- What is recognised, by the name, the place of the fields and the fields. -/
theorem classify_eq_completion_iff (v : Value) (e : CompletionEvent) :
    classify v = .completion e ↔ ∃ name fields k, Named v name ∧ StandsIn v fields ∧
      Spells k name ∧ completionOf k fields = some e := by
  have hclassify : classify v = .completion e ↔ recognize v = some e := by
    unfold classify
    cases recognize v <;> simp
  simp only [hclassify, recognize, Option.bind_eq_bind, Option.bind_eq_some_iff, ← named_iff,
    ← standsIn_iff, find?_word_eq_some_iff, ← spells_iff]
  constructor
  · rintro ⟨name, hname, fields, hfields, k, hk, he⟩
    exact ⟨name, fields, k, hname, hfields, hk, he⟩
  · rintro ⟨name, fields, k, hname, hfields, hk, he⟩
    exact ⟨name, hname, fields, hfields, k, hk, he⟩

/-- Where the fields of a kind are enough for an event: a check of who speaks
next needs its result. -/
def Suffices (k : CompletionKind) (fields : Members) : Prop :=
  k = .nextSpeakerCheck → ∃ word ∈ ["user", "model"],
    Members.get? fields "result" = some (.string word)

theorem ofWord?_eq_some_iff (word : String) (s : Speaker) :
    Speaker.ofWord? word = some s ↔ s.word = word := by
  constructor
  · intro h
    simpa using List.find?_some h
  · rintro rfl
    cases s <;> decide

theorem exists_ofWord?_iff (word : String) :
    (∃ s, Speaker.ofWord? word = some s) ↔ word ∈ ["user", "model"] := by
  simp only [ofWord?_eq_some_iff, List.mem_cons, List.not_mem_nil, or_false]
  constructor
  · rintro ⟨s, rfl⟩
    cases s <;> decide
  · rintro (rfl | rfl)
    · exact ⟨.user, rfl⟩
    · exact ⟨.model, rfl⟩

theorem kind_of_completionOf {k : CompletionKind} {fields : Members} {e : CompletionEvent}
    (h : completionOf k fields = some e) : e.kind = k := by
  cases k with
  | nextSpeakerCheck =>
    obtain ⟨s, -, rfl⟩ := Option.map_eq_some_iff.mp h
    rfl
  | agentCompleteTask | agentFinish | conversationFinished =>
    obtain rfl := Option.some.inj h
    rfl

theorem exists_completionOf_iff (k : CompletionKind) (fields : Members) :
    (∃ e, completionOf k fields = some e) ↔ Suffices k fields := by
  cases k with
  | nextSpeakerCheck =>
    constructor
    · rintro ⟨e, he⟩ -
      obtain ⟨s, hs, rfl⟩ := Option.map_eq_some_iff.mp he
      obtain ⟨word, htext, hspeaker⟩ := Option.bind_eq_some_iff.mp hs
      obtain ⟨v, hv, htext⟩ := Option.bind_eq_some_iff.mp htext
      exact ⟨word, (exists_ofWord?_iff word).mp ⟨s, hspeaker⟩, text?_eq_some_iff.mp htext ▸ hv⟩
    · intro h
      obtain ⟨word, hmem, hresult⟩ := h rfl
      obtain ⟨s, hs⟩ := (exists_ofWord?_iff word).mpr hmem
      exact ⟨.nextSpeakerCheck s, by simp [completionOf, hresult, Value.text?, hs]⟩
  | agentCompleteTask | agentFinish | conversationFinished => exact ⟨nofun, fun _ => ⟨_, rfl⟩⟩

/-- The names of all fields of events. -/
def fieldNames : List String :=
  ["result", "turn_count", "turnCount", "duration_ms", "durationMs", "terminate_reason",
    "terminateReason"]

/-- An event is read from these fields only. -/
theorem completionOf_congr {fs gs : Members}
    (h : ∀ name ∈ fieldNames, Members.get? fs name = Members.get? gs name) (k : CompletionKind) :
    completionOf k fs = completionOf k gs := by
  simp only [fieldNames, List.forall_mem_cons] at h
  obtain ⟨hresult, hturns, hturns', hms, hms', hreason, hreason', -⟩ := h
  cases k with
  | nextSpeakerCheck => simp only [completionOf, hresult]
  | agentFinish =>
    simp only [completionOf, countUnder, textUnder, hturns, hturns', hms, hms', hreason, hreason']
  | agentCompleteTask | conversationFinished =>
    simp only [completionOf, countUnder, hturns, hturns', hms, hms']

/-- Two values have the same name, and the same fields of events where their
fields stand. -/
structure SameReading (v w : Value) : Prop where
  name : ∀ name, Named v name ↔ Named w name
  fields : ∀ fs gs, StandsIn v fs → StandsIn w gs →
    ∀ name ∈ fieldNames, Members.get? fs name = Members.get? gs name

/-- Where a name is, there is a place for the fields. -/
theorem Named.exists_standsIn {v : Value} {name : String} (h : Named v name) :
    ∃ fields, StandsIn v fields := by
  simp only [standsIn_iff]
  rcases h with ⟨ms, hms, -⟩ | ⟨-, ms, rfl, -⟩
  · rw [(hasAttributes_iff v ms).mp hms]
    exact ⟨ms, rfl⟩
  · cases attributes? (.object ms) with
    | none => exact ⟨ms, rfl⟩
    | some fields => exact ⟨fields, rfl⟩

theorem SameReading.completion {v w : Value} (h : SameReading v w) {e : CompletionEvent}
    (he : classify v = .completion e) : classify w = .completion e := by
  obtain ⟨name, fields, k, hname, hfields, hk, hof⟩ := (classify_eq_completion_iff v e).mp he
  have hname' := (h.name name).mp hname
  obtain ⟨fields', hfields'⟩ := hname'.exists_standsIn
  refine (classify_eq_completion_iff w e).mpr ⟨name, fields', k, hname', hfields', hk, ?_⟩
  rwa [← completionOf_congr (h.fields fields fields' hfields hfields')]

theorem SameReading.symm {v w : Value} (h : SameReading v w) : SameReading w v :=
  ⟨fun name => (h.name name).symm, fun fs gs hfs hgs name hin =>
    (h.fields gs fs hgs hfs name hin).symm⟩

/-- **Nothing else is recognised.** A value is a completion event of a kind
exactly if it has a name that spells the kind, and for a check of who speaks
next one of the two results among its fields. The event then depends on the
name and the fields of events alone, and any other value is passed on as it
is. -/
theorem classify_recognizes_exactly (v : Value) :
    (∀ k, (∃ e : CompletionEvent, e.kind = k ∧ classify v = .completion e) ↔
      ∃ name fields, Named v name ∧ StandsIn v fields ∧ Spells k name ∧ Suffices k fields) ∧
    (∀ w, SameReading v w → (classify v).completion? = (classify w).completion?) ∧
    ((∀ e, classify v ≠ .completion e) → classify v = .other v) := by
  refine ⟨fun k => ?kind, fun w hsame => ?same, fun hnone => ?other⟩
  case kind =>
    simp only [classify_eq_completion_iff, ← exists_completionOf_iff]
    constructor
    · rintro ⟨e, rfl, name, fields, k, hname, hfields, hk, hof⟩
      obtain rfl := kind_of_completionOf hof
      exact ⟨name, fields, hname, hfields, hk, e, hof⟩
    · rintro ⟨name, fields, hname, hfields, hk, e, hof⟩
      exact ⟨e, kind_of_completionOf hof, name, fields, k, hname, hfields, hk, hof⟩
  case same =>
    have hiff : ∀ (u : Value) e, (classify u).completion? = some e ↔
        classify u = .completion e := by
      intro u e
      cases classify u <;> simp [Event.completion?]
    ext e
    rw [hiff, hiff]
    exact ⟨hsame.completion, hsame.symm.completion⟩
  case other =>
    unfold classify at hnone ⊢
    cases h : recognize v with
    | none => rfl
    | some e => exact absurd (by rw [h]) (hnone e)

/-- A name beside the attributes, and a result beside them that does not
count. -/
def shadowed : Value :=
  .object [("attributes", .object [("result", .string "user")]),
    ("event.name", .string " gemini_cli.next.speaker_check\n"), ("result", .string "model")]

/-- The same name and the same result without attributes. -/
def flat : Value :=
  .object [("event_name", .string " gemini_cli.next.speaker_check\n"), ("result", .string "user"),
    ("seq", .number (.natural 4))]

theorem shadowed_recognizes_exactly :
    SameReading shadowed flat ∧
      (classify shadowed).completion? = (classify flat).completion? ∧
      (classify flat).completion? = some (.nextSpeakerCheck .user) := by
  have hsame : SameReading shadowed flat := by
    refine ⟨fun name => ?_, fun fs gs hfs hgs => ?_⟩
    · rw [named_iff, named_iff]
      exact Iff.rfl
    · rw [standsIn_iff] at hfs hgs
      obtain rfl := Option.some.inj hfs
      obtain rfl := Option.some.inj hgs
      intro name hname
      simp only [fieldNames, List.mem_cons, List.not_mem_nil, or_false] at hname
      rcases hname with rfl | rfl | rfl | rfl | rfl | rfl | rfl <;> rfl
  exact ⟨hsame, (classify_recognizes_exactly shadowed).2.1 flat hsame, by decide⟩

/-! ## §4 Writing -/

/-- No value, or null. -/
def Missing (x : Option Value) : Prop := x = none ∨ x = some .null

/-- A field is written under the first of two names, or under the second
one; a field that is not there is missing under both. -/
inductive FieldWritten {α : Type} (writes : α → Value → Prop) (ms : Members)
    (snake camel : String) : Option α → Prop where
  | snake {x : α} {v : Value} (h : Members.get? ms snake = some v) (hwrites : writes x v) :
      FieldWritten writes ms snake camel (some x)
  | camel {x : α} {v : Value} (hsnake : Missing (Members.get? ms snake))
      (h : Members.get? ms camel = some v) (hwrites : writes x v) :
      FieldWritten writes ms snake camel (some x)
  | missing (hsnake : Missing (Members.get? ms snake)) (hcamel : Missing (Members.get? ms camel)) :
      FieldWritten writes ms snake camel none

/-- A count is written as an integer, or as a text of digits between blanks,
with or without zeros in front. -/
inductive WritesCount (n : UInt64) : Value → Prop where
  | integer : WritesCount n (.number (.natural n))
  | text {left digits right : List Char} {width : Nat} (hleft : Blanks left)
      (hdigits : Text.Writes (width + 1) n.toNat digits) (hright : Blanks right) :
      WritesCount n (.string (String.ofList (left ++ digits ++ right)))

/-- A text is written as it is. -/
def WritesText (s : String) (v : Value) : Prop := v = .string s

/-- Both counts are written. -/
structure CountsWritten (ms : Members) (turns durationMs : Option UInt64) : Prop where
  turns : FieldWritten WritesCount ms "turn_count" "turnCount" turns
  duration : FieldWritten WritesCount ms "duration_ms" "durationMs" durationMs

/-- Members in which the fields of an event are written. -/
inductive Carries (ms : Members) : CompletionEvent → Prop where
  | nextSpeakerCheck (s : Speaker) (h : Members.get? ms "result" = some (.string s.word)) :
      Carries ms (.nextSpeakerCheck s)
  | agentCompleteTask {turns durationMs : Option UInt64} (h : CountsWritten ms turns durationMs) :
      Carries ms (.agentCompleteTask turns durationMs)
  | agentFinish {reason : Option String} {turns durationMs : Option UInt64}
      (hreason : FieldWritten WritesText ms "terminate_reason" "terminateReason" reason)
      (h : CountsWritten ms turns durationMs) : Carries ms (.agentFinish reason turns durationMs)
  | conversationFinished {turns durationMs : Option UInt64}
      (h : CountsWritten ms turns durationMs) : Carries ms (.conversationFinished turns durationMs)

/-- A field is read as it is written. -/
theorem FieldWritten.read {α : Type} {writes : α → Value → Prop} {read : Value → Option α}
    (hread : ∀ x v, writes x v → read v = some x) (hnull : read .null = none) {ms : Members}
    {snake camel : String} {x : Option α} (h : FieldWritten writes ms snake camel x) :
    (((Members.get? ms snake).bind read).orElse fun _ => (Members.get? ms camel).bind read) =
      x := by
  have hmissing : ∀ o, Missing o → o.bind read = none := by
    rintro o (rfl | rfl)
    · rfl
    · exact hnull
  cases h with
  | snake h hwrites => simp [h, hread _ _ hwrites]
  | camel hsnake h hwrites => simp [hmissing _ hsnake, h, hread _ _ hwrites]
  | missing hsnake hcamel => simp [hmissing _ hsnake, hmissing _ hcamel]

theorem WritesCount.read (n : UInt64) (v : Value) (h : WritesCount n v) : count? v = some n := by
  cases h with
  | integer => rfl
  | text hleft hdigits hright =>
    rw [count?, String.toList_ofList, hdigits.solid.trimBlanks hleft hright, hdigits.word64?]

theorem FieldWritten.count {ms : Members} {snake camel : String} {x : Option UInt64}
    (h : FieldWritten WritesCount ms snake camel x) : countUnder ms snake camel = x :=
  h.read WritesCount.read rfl

theorem FieldWritten.text {ms : Members} {snake camel : String} {x : Option String}
    (h : FieldWritten WritesText ms snake camel x) : textUnder ms snake camel = x :=
  h.read (fun _ _ hwrites => text?_eq_some_iff.mpr hwrites) rfl

/-- The fields of an event make the event. -/
theorem Carries.completionOf {ms : Members} {e : CompletionEvent} (h : Carries ms e) :
    completionOf e.kind ms = some e := by
  cases h with
  | nextSpeakerCheck s h =>
    have hs : Speaker.ofWord? s.word = some s := (ofWord?_eq_some_iff s.word s).mpr rfl
    simp [Telemetry.completionOf, CompletionEvent.kind, h, Value.text?, hs]
  | agentFinish hreason h =>
    simp only [Telemetry.completionOf, CompletionEvent.kind, hreason.text, h.turns.count,
      h.duration.count]
  | agentCompleteTask h | conversationFinished h =>
    simp only [Telemetry.completionOf, CompletionEvent.kind, h.turns.count, h.duration.count]

/-- A name next to the fields is the name of the object. -/
theorem StandsIn.named {v : Value} {fields : Members} {name : String} (h : StandsIn v fields)
    (hname : NamedIn fields name) : Named v name := by
  rw [standsIn_iff] at h
  cases hattributes : attributes? v with
  | some ms =>
    rw [hattributes] at h
    obtain rfl := Option.some.inj h
    exact .inl ⟨ms, (hasAttributes_iff v ms).mpr hattributes, hname⟩
  | none =>
    rw [hattributes] at h
    refine .inr ⟨fun ms other hms => ?_, fields, members?_eq_some_iff.mp h, hname⟩
    exact nomatch hattributes.symm.trans ((hasAttributes_iff v ms).mp hms)

/-- **Every way to write an event is understood.** Wherever its fields stand,
however its name is spelled and its fields are written, and whatever else is
there: the event is recognised as it is. -/
theorem classify_of_written {v : Value} {fields : Members} {name : String} {e : CompletionEvent}
    (hplace : StandsIn v fields) (hname : NamedIn fields name) (hspells : Spells e.kind name)
    (hcarries : Carries fields e) : classify v = .completion e :=
  (classify_eq_completion_iff v e).mpr
    ⟨name, fields, e.kind, hplace.named hname, hplace, hspells, hcarries.completionOf⟩

/-- The fields of a finish, one of its counts as a text and under its second
name, with blanks and dots in the name of the event. -/
def finishFields : Members :=
  [("durationMs", .string "\u00a0007 "), ("duration_ms", .null),
   ("event_name", .string "\tgemini_cli.agent.finish "), ("seq", .number (.natural 4)),
   ("terminate_reason", .string "GOAL")]

/-- These fields below the body; a text stands where attributes would come
before them, and another event where attributes would come behind them. -/
def scattered : Value :=
  .object [("attributes", .object [("event.name", .string "agent_complete_task")]),
    ("body", .object [("attributes", .object finishFields)]),
    ("resource", .object [("attributes", .string "none")])]

theorem scattered_is_understood :
    classify scattered = .completion (.agentFinish (some "GOAL") none (some 7)) := by
  have hplace : StandsIn scattered finishFields := by
    refine ⟨[["resource", "attributes"]], ["body", "attributes"], [["attributes"], []], rfl, rfl,
      ?_⟩
    intro path hpath ms hms
    obtain rfl := List.mem_singleton.mp hpath
    exact nomatch (Option.some.inj hms : Value.string "none" = .object ms)
  have hspells : Spells .agentFinish "\tgemini_cli.agent.finish " :=
    ⟨['\t'], namespaceWord, "agent.finish".toList, [' '], by decide, by decide, .inr rfl,
      (dotted_iff (by decide) _).mpr (by decide), by decide⟩
  have hcount : WritesCount 7 (.string "\u00a0007 ") :=
    @WritesCount.text 7 ['\u00a0'] ['0', '0', '7'] [' '] 2 (by decide)
      ⟨rfl, List.all_eq_true.mp rfl, rfl⟩ (by decide)
  have hcarries : Carries finishFields (.agentFinish (some "GOAL") none (some 7)) :=
    .agentFinish (.snake rfl rfl) ⟨.missing (.inl rfl) (.inl rfl), .camel (.inr rfl) rfl hcount⟩
  exact classify_of_written hplace (.inr ⟨rfl, rfl⟩) hspells hcarries

end Runwatch.Telemetry
