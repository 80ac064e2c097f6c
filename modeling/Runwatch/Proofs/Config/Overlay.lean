/-
Runwatch.Proofs.Config.Overlay — a configuration file lies over the standard
settings.

What a file gives is said here of the values in its document: a file is
accepted exactly if the values that it sets are of the right kind, and then
these are the settings, with the standard ones wherever it sets nothing. The
layout is set field by field, the store and the push section only as a whole.

  §1 Documents — the values in a document by their paths (`Node.value?`).
  §2 Sections  — when a section is read, and what is read then.
  §3 Settings  — `parse_eq_ok_iff`.

The main statement is `Settings.parse_overlays`.
-/
import Runwatch.Config.File
import Runwatch.Proofs.Toml.Distinct

namespace Runwatch

open Json (Decoder Dialect Members Source Value bind_eq_ok)
open Toml (Key Node)

/-! ## §1 Documents -/

namespace Toml.Node

/-- The node at the end of a path of names. -/
def at? : List String → Node → Option Node
  | [], n => some n
  | name :: path, .table _ _ entries => (lookup name entries).bind (at? path)
  | _ :: _, _ => none

/-- The value at the end of a path of names. -/
def value? (n : Node) (path : List String) : Option Value := (n.at? path).map toJson

theorem get?_entriesToJson (entries : List (Key × Node)) (name : String) :
    Members.get? (entriesToJson entries) name = (lookup name entries).map toJson := by
  induction entries with
  | nil => rfl
  | cons e entries ih =>
    obtain ⟨k, n⟩ := e
    rw [entriesToJson, Json.Members.get?_cons, ih]
    by_cases h : name = k.name
    · simp [lookup, h]
    · simp [lookup, h, Ne.symm h]

theorem names_entriesToJson (entries : List (Key × Node)) :
    (entriesToJson entries).map (·.1) = entries.map (·.1.name) := by
  induction entries with
  | nil => rfl
  | cons e entries ih => rw [entriesToJson, List.map_cons, List.map_cons, ih]

theorem at?_cons (n : Node) (name : String) (path : List String) :
    n.at? (name :: path) = (n.at? [name]).bind (at? path) := by
  cases n with
  | plain | date | array | tables => rfl
  | table kind place entries =>
    simp only [at?]
    cases lookup name entries <;> rfl

theorem value?_cons (n : Node) (name : String) (path : List String) :
    n.value? (name :: path) = (n.at? [name]).bind fun m => m.value? path := by
  rw [value?, at?_cons, Option.map_bind]
  rfl

/-- The members of a table are its entries by name. -/
theorem exists_members {n : Node} (hn : n.Distinct) (htable : n.IsTable) :
    ∃ ms, n.toJson = .object ms ∧ (ms.map (·.1)).Nodup ∧
      ∀ name, Members.get? ms name = n.value? [name] := by
  obtain ⟨kind, place, entries, rfl⟩ := htable
  refine ⟨entriesToJson entries, rfl, ?_, fun name => ?_⟩
  · cases hn with
    | table names => rwa [names_entriesToJson]
  · rw [get?_entriesToJson, value?, at?]
    cases lookup name entries <;> rfl

theorem Distinct.of_at? {n m : Node} {name : String} (hn : n.Distinct)
    (h : n.at? [name] = some m) : m.Distinct := by
  cases n with
  | plain | date | array | tables => cases h
  | table kind place entries =>
    obtain ⟨child, hchild, h⟩ := Option.bind_eq_some_iff.mp h
    obtain rfl := Option.some.inj h
    exact hn.of_lookup hchild

end Toml.Node

/-! ## §2 Sections -/

/-- A value that may be set to a text: it is that text, and where it is not set
the standard one. -/
def SetsOver (standard : String) (v : Option Value) (s : String) : Prop :=
  v = none ∧ s = standard ∨ v = some (.string s)

theorem textAs_eq_ok_iff {expected : String} {v : Value} {s : String} :
    Decoder.textAs expected v = .ok s ↔ v = .string s := by
  cases v <;> simp [Decoder.textAs, Json.mismatch]

theorem path_eq_ok_iff {v : Value} {s : String} : Decoder.path v = .ok s ↔ v = .string s :=
  textAs_eq_ok_iff

theorem text_eq_ok_iff {v : Value} {s : String} : Decoder.text v = .ok s ↔ v = .string s :=
  textAs_eq_ok_iff

theorem word_eq_ok_iff {v : Value} {n : UInt64} :
    Decoder.word v = .ok n ↔ v = .number (.natural n) := by
  cases v with
  | number k => cases k <;> simp [Decoder.word, Json.mismatch]
  | null | bool | string | array | object => simp [Decoder.word, Json.mismatch]

theorem setsOver_iff {ms : Members} {place : Nat} {name standard s : String} :
    (Source.members ms).defaulted place name Decoder.path standard = .ok s ↔
      SetsOver standard (Members.get? ms name) s := by
  simp only [Json.defaulted_members, path_eq_ok_iff, SetsOver]
  simp

section

variable {dialect : Dialect} {n : Node}

/-- The layout is set field by field. -/
theorem Layout.decode_eq_ok_iff (hn : n.Distinct) (htable : n.IsTable) (l : Layout) :
    Layout.decode dialect n.toJson = .ok l ↔
      SetsOver standard.lifecycleDir (n.value? ["lifecycle_dir"]) l.lifecycleDir ∧
        SetsOver standard.telemetryDir (n.value? ["telemetry_dir"]) l.telemetryDir := by
  obtain ⟨ms, hms, hnames, hget⟩ := Node.exists_members hn htable
  rw [hms, Layout.decode, Json.record_object hnames]
  · simp only [bind_eq_ok, setsOver_iff, hget]
    constructor
    · rintro ⟨lifecycle, hlifecycle, telemetry, htelemetry, hl⟩
      obtain rfl := Except.ok.inj hl
      exact ⟨hlifecycle, htelemetry⟩
    · rintro ⟨hlifecycle, htelemetry⟩
      exact ⟨_, hlifecycle, _, htelemetry, rfl⟩
  · intro l hl
    simp only [bind_eq_ok] at hl
    obtain ⟨lifecycle, hlifecycle, telemetry, htelemetry, -⟩ := hl
    simp only [List.forall_mem_cons, List.not_mem_nil, false_implies, implies_true, and_true]
    exact ⟨Json.defaulted_check hlifecycle, Json.defaulted_check htelemetry⟩

/-- The store is set as a whole. -/
theorem StoreSettings.decode_eq_ok_iff (hn : n.Distinct) (htable : n.IsTable) (s : StoreSettings) :
    StoreSettings.decode dialect n.toJson = .ok s ↔
      n.value? ["sqlite_path"] = some (.string s.path) := by
  obtain ⟨ms, hms, hnames, hget⟩ := Node.exists_members hn htable
  rw [hms, StoreSettings.decode, Json.record_object hnames]
  · simp only [bind_eq_ok, Json.required_members, path_eq_ok_iff, hget]
    constructor
    · rintro ⟨path, ⟨v, hv, rfl⟩, hs⟩
      obtain rfl := Except.ok.inj hs
      exact hv
    · intro hv
      exact ⟨_, ⟨_, hv, rfl⟩, rfl⟩
  · intro s hs
    simp only [bind_eq_ok] at hs
    obtain ⟨path, hpath, -⟩ := hs
    simp only [List.forall_mem_cons, List.not_mem_nil, false_implies, implies_true, and_true]
    exact Json.required_check hpath

/-- So is the push section. -/
theorem PushSettings.decode_eq_ok_iff (hn : n.Distinct) (htable : n.IsTable) (p : PushSettings) :
    PushSettings.decode dialect n.toJson = .ok p ↔
      n.value? ["request_timeout_secs"] = some (.number (.natural p.timeoutSecs)) ∧
        n.value? ["sound"] = some (.string p.sound) := by
  obtain ⟨ms, hms, hnames, hget⟩ := Node.exists_members hn htable
  rw [hms, PushSettings.decode, Json.record_object hnames]
  · simp only [bind_eq_ok, Json.required_members, word_eq_ok_iff, text_eq_ok_iff, hget]
    constructor
    · rintro ⟨timeout, ⟨v, hv, rfl⟩, sound, ⟨w, hw, rfl⟩, hp⟩
      obtain rfl := Except.ok.inj hp
      exact ⟨hv, hw⟩
    · rintro ⟨hv, hw⟩
      exact ⟨_, ⟨_, hv, rfl⟩, _, ⟨_, hw, rfl⟩, rfl⟩
  · intro p hp
    simp only [bind_eq_ok] at hp
    obtain ⟨timeout, htimeout, sound, hsound, -⟩ := hp
    simp only [List.forall_mem_cons, List.not_mem_nil, false_implies, implies_true, and_true]
    exact ⟨Json.required_check htimeout, Json.required_check hsound⟩

end

/-! ## §3 Settings -/

namespace Settings

/-- Where one of the three sections is in a document, it is a table. -/
def HasSections (root : Node) : Prop :=
  ∀ name ∈ ["layout", "store", "push"], ∀ n ∈ root.at? [name], n.IsTable

/-- What a document sets is of the right kind: the directories of the layout,
the store if that section is there, and both values of the push section if
that is there. -/
structure IsFit (root : Node) : Prop where
  lifecycleDir : ∀ v, root.value? ["layout", "lifecycle_dir"] = some v → ∃ s, v = .string s
  telemetryDir : ∀ v, root.value? ["layout", "telemetry_dir"] = some v → ∃ s, v = .string s
  store : root.at? ["store"] ≠ none → ∃ s, root.value? ["store", "sqlite_path"] = some (.string s)
  push : root.at? ["push"] ≠ none →
    (∃ n, root.value? ["push", "request_timeout_secs"] = some (.number (.natural n))) ∧
      ∃ s, root.value? ["push", "sound"] = some (.string s)

/-- The store is the one that a document sets, or the standard one if there is
no such section. -/
def SetsStore (root : Node) (s : StoreSettings) : Prop :=
  root.at? ["store"] = none ∧ s = StoreSettings.standard ∨
    root.at? ["store"] ≠ none ∧ root.value? ["store", "sqlite_path"] = some (.string s.path)

/-- The push settings are those that a document sets, or the standard ones if
there is no such section. -/
def SetsPush (root : Node) (p : PushSettings) : Prop :=
  root.at? ["push"] = none ∧ p = PushSettings.standard ∨
    root.at? ["push"] ≠ none ∧
      root.value? ["push", "request_timeout_secs"] = some (.number (.natural p.timeoutSecs)) ∧
      root.value? ["push", "sound"] = some (.string p.sound)

/-- Settings that are what a document sets, and the standard ones elsewhere. -/
structure Overlays (root : Node) (s : Settings) : Prop where
  lifecycleDir : SetsOver Layout.standard.lifecycleDir (root.value? ["layout", "lifecycle_dir"])
    s.layout.lifecycleDir
  telemetryDir : SetsOver Layout.standard.telemetryDir (root.value? ["layout", "telemetry_dir"])
    s.layout.telemetryDir
  store : SetsStore root s.store
  push : SetsPush root s.push

/-- What a section gives: the standard value where it is absent, and else what
is read out of it. -/
def SectionGives {α : Type} (root : Node) (name : String) (d : Decoder α) (standard a : α) : Prop :=
  root.at? [name] = none ∧ a = standard ∨ ∃ n, root.at? [name] = some n ∧ d n.toJson = .ok a

theorem sectionGives_iff {α : Type} {root : Node} {name : String} {d : Decoder α}
    {standard a : α} : SectionGives root name d standard a ↔
      root.value? [name] = none ∧ a = standard ∨
        ∃ v, root.value? [name] = some v ∧ d v = .ok a := by
  rw [SectionGives, Node.value?]
  cases root.at? [name] <;> simp

section

variable {dialect : Dialect} {root : Node} (hroot : root.Distinct) (hsections : HasSections root)

include hroot hsections

theorem layout_iff (l : Layout) :
    SectionGives root "layout" (Layout.decode dialect) Layout.standard l ↔
      SetsOver Layout.standard.lifecycleDir (root.value? ["layout", "lifecycle_dir"])
          l.lifecycleDir ∧
        SetsOver Layout.standard.telemetryDir (root.value? ["layout", "telemetry_dir"])
          l.telemetryDir := by
  rw [SectionGives, Node.value?_cons, Node.value?_cons]
  cases hlayout : root.at? ["layout"] with
  | none =>
    obtain ⟨lifecycleDir, telemetryDir⟩ := l
    simp [SetsOver, Layout.standard]
  | some n =>
    simpa using Layout.decode_eq_ok_iff (hroot.of_at? hlayout) (hsections _ (by simp) n hlayout) l

theorem store_iff (s : StoreSettings) :
    SectionGives root "store" (StoreSettings.decode dialect) StoreSettings.standard s ↔
      SetsStore root s := by
  rw [SectionGives, SetsStore, Node.value?_cons]
  cases hstore : root.at? ["store"] with
  | none => simp
  | some n =>
    simpa using
      StoreSettings.decode_eq_ok_iff (hroot.of_at? hstore) (hsections _ (by simp) n hstore) s

theorem push_iff (p : PushSettings) :
    SectionGives root "push" (PushSettings.decode dialect) PushSettings.standard p ↔
      SetsPush root p := by
  rw [SectionGives, SetsPush, Node.value?_cons, Node.value?_cons]
  cases hpush : root.at? ["push"] with
  | none => simp
  | some n =>
    simpa using
      PushSettings.decode_eq_ok_iff (hroot.of_at? hpush) (hsections _ (by simp) n hpush) p

/-- A document is read as the settings that lie over the standard ones. -/
theorem decode_eq_ok_iff (htable : root.IsTable) (s : Settings) :
    decode dialect root.toJson = .ok s ↔ Overlays root s := by
  obtain ⟨ms, hms, hnames, hget⟩ := Node.exists_members hroot htable
  rw [hms, decode, Json.record_object hnames]
  · simp only [bind_eq_ok, Json.defaulted_members, hget, ← sectionGives_iff,
      layout_iff hroot hsections, store_iff hroot hsections, push_iff hroot hsections]
    constructor
    · rintro ⟨layout, ⟨hlifecycle, htelemetry⟩, store, hstore, push, hpush, hs⟩
      obtain rfl := Except.ok.inj hs
      exact ⟨hlifecycle, htelemetry, hstore, hpush⟩
    · rintro ⟨hlifecycle, htelemetry, hstore, hpush⟩
      exact ⟨_, ⟨hlifecycle, htelemetry⟩, _, hstore, _, hpush, rfl⟩
  · intro s hs
    simp only [bind_eq_ok] at hs
    obtain ⟨layout, hlayout, store, hstore, push, hpush, -⟩ := hs
    simp only [List.forall_mem_cons, List.not_mem_nil, false_implies, implies_true, and_true]
    exact ⟨Json.defaulted_check hlayout, Json.defaulted_check hstore, Json.defaulted_check hpush⟩

end

theorem parse_eq_ok_iff {text : String} {root : Node} (hroot : Toml.parse text.toList = .ok root)
    (hsections : HasSections root) (s : Settings) : parse text = .ok s ↔ Overlays root s := by
  obtain ⟨hdistinct, htable⟩ := Toml.parse_distinct hroot
  rw [← decode_eq_ok_iff hdistinct hsections htable, parse, hroot]
  cases h : decode tomlDialect root.toJson <;> simp [h]

theorem exists_setsOver_iff {standard : String} {v : Option Value} :
    (∃ s, SetsOver standard v s) ↔ ∀ w, v = some w → ∃ s, w = .string s := by
  cases v <;> simp [SetsOver]

theorem exists_overlays_iff (root : Node) : (∃ s, Overlays root s) ↔ IsFit root := by
  constructor
  · rintro ⟨s, h⟩
    refine ⟨exists_setsOver_iff.mp ⟨_, h.lifecycleDir⟩, exists_setsOver_iff.mp ⟨_, h.telemetryDir⟩,
      fun hne => ?_, fun hne => ?_⟩
    · rcases h.store with ⟨hnone, -⟩ | ⟨-, hpath⟩
      · exact absurd hnone hne
      · exact ⟨_, hpath⟩
    · rcases h.push with ⟨hnone, -⟩ | ⟨-, htimeout, hsound⟩
      · exact absurd hnone hne
      · exact ⟨⟨_, htimeout⟩, _, hsound⟩
  · intro h
    obtain ⟨lifecycleDir, hlifecycle⟩ := exists_setsOver_iff.mpr h.lifecycleDir
    obtain ⟨telemetryDir, htelemetry⟩ := exists_setsOver_iff.mpr h.telemetryDir
    obtain ⟨store, hstore⟩ : ∃ store, SetsStore root store := by
      by_cases hnone : root.at? ["store"] = none
      · exact ⟨_, .inl ⟨hnone, rfl⟩⟩
      · obtain ⟨path, hpath⟩ := h.store hnone
        exact ⟨⟨path⟩, .inr ⟨hnone, hpath⟩⟩
    obtain ⟨push, hpush⟩ : ∃ push, SetsPush root push := by
      by_cases hnone : root.at? ["push"] = none
      · exact ⟨_, .inl ⟨hnone, rfl⟩⟩
      · obtain ⟨⟨timeout, htimeout⟩, sound, hsound⟩ := h.push hnone
        exact ⟨⟨timeout, sound⟩, .inr ⟨hnone, htimeout, hsound⟩⟩
    exact ⟨⟨⟨lifecycleDir, telemetryDir⟩, store, push⟩, hlifecycle, htelemetry, hstore, hpush⟩

/-- Two documents that have the same of the three sections, and the same
values under the five names in them. -/
structure SameSettings (root other : Node) : Prop where
  sections : ∀ name ∈ ["layout", "store", "push"],
    (root.at? [name]).isSome = (other.at? [name]).isSome
  values : ∀ path ∈ [["layout", "lifecycle_dir"], ["layout", "telemetry_dir"],
    ["store", "sqlite_path"], ["push", "request_timeout_secs"], ["push", "sound"]],
    root.value? path = other.value? path

theorem SameSettings.symm {root other : Node} (h : SameSettings root other) :
    SameSettings other root :=
  ⟨fun name hname => (h.sections name hname).symm, fun path hpath => (h.values path hpath).symm⟩

theorem SameSettings.overlays {root other : Node} (h : SameSettings root other) {s : Settings}
    (hs : Overlays root s) : Overlays other s := by
  have hnone : ∀ name ∈ ["layout", "store", "push"],
      root.at? [name] = none ↔ other.at? [name] = none := by
    intro name hname
    rw [← Option.not_isSome_iff_eq_none, ← Option.not_isSome_iff_eq_none, h.sections name hname]
  have hvalues := h.values
  simp only [List.forall_mem_cons, List.not_mem_nil, false_implies, implies_true, and_true]
    at hnone hvalues
  obtain ⟨-, hstore, hpush⟩ := hnone
  obtain ⟨hlifecycle, htelemetry, hpath, htimeout, hsound⟩ := hvalues
  obtain ⟨hl, ht, hstored, hpushed⟩ := hs
  refine ⟨hlifecycle ▸ hl, htelemetry ▸ ht, ?_, ?_⟩
  · rwa [SetsStore, hpath, ne_eq, hstore] at hstored
  · rwa [SetsPush, htimeout, hsound, ne_eq, hpush] at hpushed

/-- **A configuration file lies over the standard settings.** A document whose
sections are tables is accepted exactly if what it sets is of the right kind.
The settings are then what it sets, and the standard ones elsewhere: field by
field in the layout, section by section otherwise. And nothing else in it
counts: two documents that set the same give the same settings, or both give
none. -/
theorem parse_overlays {text : String} {root : Node} (hroot : Toml.parse text.toList = .ok root)
    (hsections : HasSections root) :
    ((∃ s, parse text = .ok s) ↔ IsFit root) ∧
    (∀ s, parse text = .ok s → Overlays root s) ∧
    ∀ text' other, Toml.parse text'.toList = .ok other → HasSections other →
      SameSettings root other → (parse text).toOption = (parse text').toOption := by
  refine ⟨?_, fun s => (parse_eq_ok_iff hroot hsections s).mp, ?_⟩
  · simp only [parse_eq_ok_iff hroot hsections, exists_overlays_iff]
  · intro text' other hother hsections' hsame
    have hiff : ∀ s, parse text = .ok s ↔ parse text' = .ok s := by
      intro s
      rw [parse_eq_ok_iff hroot hsections, parse_eq_ok_iff hother hsections']
      exact ⟨hsame.overlays, hsame.symm.overlays⟩
    cases h : parse text with
    | ok s => rw [(hiff s).mp h]
    | error e =>
      cases h' : parse text' with
      | ok s => cases h.symm.trans ((hiff s).mpr h')
      | error e' => rfl

/-- A document that sets one directory and the push section, and holds a date
besides. -/
def partlySet : String :=
  "n = 2026-01-01\n[layout]\ntelemetry_dir = '/t'\n[push]\nsound = \"s\"\nrequest_timeout_secs = 3"

/-- A document that sets the same in another way, with a table in the layout
that nothing is read from. -/
def dottedSet : String :=
  "push.request_timeout_secs = 3\npush.sound = 's'\n[layout]\ntelemetry_dir = \"/t\"\nkept.x = 1"

/-- What both of them set. -/
def SetsPartly (root : Node) : Prop :=
  HasSections root ∧ (root.at? ["layout"]).isSome ∧ root.at? ["store"] = none ∧
    (root.at? ["push"]).isSome ∧ root.value? ["layout", "lifecycle_dir"] = none ∧
    root.value? ["layout", "telemetry_dir"] = some (.string "/t") ∧
    root.value? ["push", "request_timeout_secs"] = some (.number (.natural 3)) ∧
    root.value? ["push", "sound"] = some (.string "s")

instance (v : Option Value) (s : String) : Decidable (v = some (.string s)) :=
  match v with
  | some (.string t) => decidable_of_iff (t = s) (by simp)
  | none | some .null | some (.bool _) | some (.number _) | some (.array _) | some (.object _) =>
    .isFalse nofun

instance (v : Option Value) (k : Json.Number) : Decidable (v = some (.number k)) :=
  match v with
  | some (.number l) => decidable_of_iff (l = k) (by simp)
  | none | some .null | some (.bool _) | some (.string _) | some (.array _) | some (.object _) =>
    .isFalse nofun

instance (n : Node) : Decidable n.IsTable :=
  match n with
  | .table kind place entries => .isTrue ⟨kind, place, entries, rfl⟩
  | .plain _ _ | .date _ | .array _ _ | .tables _ => .isFalse nofun

instance (root : Node) : Decidable (HasSections root) :=
  inferInstanceAs (Decidable (∀ _ ∈ _, ∀ _ ∈ _, _))

instance (root : Node) : Decidable (SetsPartly root) := inferInstanceAs (Decidable (_ ∧ _))

theorem exists_setsPartly {text : String}
    (h : (Toml.parse text.toList).toOption.any (SetsPartly ·) = true) :
    ∃ root, Toml.parse text.toList = .ok root ∧ SetsPartly root := by
  obtain ⟨root, hroot, hsets⟩ := (Option.any_eq_true _ _).mp h
  refine ⟨root, ?_, of_decide_eq_true hsets⟩
  cases hparse : Toml.parse text.toList <;> simp_all [Except.toOption]


theorem SetsPartly.same {root other : Node} (h : SetsPartly root) (h' : SetsPartly other) :
    SameSettings root other := by
  obtain ⟨-, hlayout, hstore, hpush, hlifecycle, htelemetry, htimeout, hsound⟩ := h
  obtain ⟨-, hlayout', hstore', hpush', hlifecycle', htelemetry', htimeout', hsound'⟩ := h'
  constructor
  · simp [hlayout, hlayout', hstore, hstore', hpush, hpush']
  · have hpath : root.value? ["store", "sqlite_path"] = other.value? ["store", "sqlite_path"] := by
      rw [Node.value?_cons, Node.value?_cons, hstore, hstore']
    simp [hlifecycle, hlifecycle', htelemetry, htelemetry', hpath, htimeout, htimeout', hsound,
      hsound']

theorem SetsPartly.isFit {root : Node} (h : SetsPartly root) : IsFit root := by
  obtain ⟨-, -, hstore, -, hlifecycle, htelemetry, htimeout, hsound⟩ := h
  exact ⟨by simp [hlifecycle], by simp [htelemetry], fun hne => absurd hstore hne,
    fun _ => ⟨⟨3, htimeout⟩, "s", hsound⟩⟩

theorem SetsPartly.overlays {root : Node} (h : SetsPartly root) {s : Settings}
    (hs : Overlays root s) :
    s = ⟨⟨"/root/lifecycle", "/t"⟩, StoreSettings.standard, ⟨3, "s"⟩⟩ := by
  obtain ⟨⟨lifecycleDir, telemetryDir⟩, store, timeoutSecs, sound⟩ := s
  obtain ⟨-, -, hstore, hpush, hlifecycle, htelemetry, htimeout, hsound⟩ := h
  have hne : root.at? ["push"] ≠ none := Option.isSome_iff_ne_none.mp hpush
  obtain ⟨hl, ht, hstored, hpushed⟩ := hs
  simp only [SetsOver, SetsStore, SetsPush, hlifecycle, htelemetry, hstore, hne, htimeout,
    hsound] at hl ht hstored hpushed
  simp_all [Layout.standard]

theorem partlySet_overlays : ∃ root, Toml.parse partlySet.toList = .ok root ∧ HasSections root ∧
    parse partlySet = .ok ⟨⟨"/root/lifecycle", "/t"⟩, StoreSettings.standard, ⟨3, "s"⟩⟩ ∧
    (parse partlySet).toOption = (parse dottedSet).toOption := by
  have hpartly : (Toml.parse partlySet.toList).toOption.any (SetsPartly ·) = true := by
    decide +kernel
  have hdotted : (Toml.parse dottedSet.toList).toOption.any (SetsPartly ·) = true := by
    decide +kernel
  obtain ⟨root, hroot, hsets⟩ := exists_setsPartly hpartly
  obtain ⟨other, hother, hsets'⟩ := exists_setsPartly hdotted
  obtain ⟨hfit, hoverlays, hsame⟩ := parse_overlays hroot hsets.1
  obtain ⟨s, hs⟩ := hfit.mpr hsets.isFit
  have hgives : s = _ := hsets.overlays (hoverlays s hs)
  exact ⟨root, hroot, hsets.1, hgives ▸ hs, hsame _ other hother hsets'.1 (hsets.same hsets')⟩

end Settings

end Runwatch
