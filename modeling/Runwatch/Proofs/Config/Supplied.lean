/-
Runwatch.Proofs.Config.Supplied — what variables supply reaches the
credentials as it was meant.

A key has many lines, and a variable often cannot hold them: some of the line
ends are then written as a backslash and the letter n (`Pasted`). Reading
turns all of them back, and leaves none.

  §1 Keys      — `spelledLines` undoes this way of writing
                 (`Pasted.spelledLines`), and nothing of it is left
                 (`spelledLines_clean`).
  §2 Variables — which values count (`Supplied`).

The main statement is `Credentials.ofLookup_faithful`.
-/
import Mathlib.Data.List.Infix
import Runwatch.Config.Credentials
import Runwatch.Proofs.Text.Blank

namespace Runwatch

open Text (Blanks Tight TrimsTo)

/-! ## §1 Keys -/

/-- A text with some of its line ends written as a backslash and the letter
n. -/
inductive Pasted : List Char → List Char → Prop where
  | nil : Pasted [] []
  | same (c : Char) {text written : List Char} (h : Pasted text written) :
      Pasted (c :: text) (c :: written)
  | lineEnd {text written : List Char} (h : Pasted text written) :
      Pasted ('\n' :: text) ('\\' :: 'n' :: written)

/-- A character stays unless it begins a line end that is written so. -/
theorem spelledLines_cons {c : Char} {cs : List Char} (h : c = '\\' → cs.head? ≠ some 'n') :
    spelledLines (c :: cs) = c :: spelledLines cs := by
  rw [spelledLines]
  intro rest hc hcs
  exact h hc (by simp [hcs])

/-- A text without backslashes is read back. -/
theorem Pasted.spelledLines {text written : List Char} (h : Pasted text written)
    (htext : '\\' ∉ text) : spelledLines written = text := by
  induction h with
  | nil => rfl
  | same c h ih =>
    obtain ⟨hc, htext⟩ := not_or.mp (mt List.mem_cons.mpr htext)
    rw [spelledLines_cons fun heq => absurd heq.symm hc, ih htext]
  | lineEnd h ih =>
    rw [Runwatch.spelledLines, ih fun hmem => htext (List.mem_cons_of_mem _ hmem)]

/-- An n stands in front only where one did before. -/
theorem head?_of_spelledLines {cs rest : List Char} (h : spelledLines cs = 'n' :: rest) :
    cs.head? = some 'n' := by
  fun_cases spelledLines cs with
  | case1 next => cases h
  | case2 c next hkept =>
    rw [Runwatch.spelledLines.eq_2 c next hkept] at h
    simp [(List.cons.inj h).1]
  | case3 => cases h

/-- No backslash is left in front of an n. -/
theorem spelledLines_clean (cs : List Char) : ¬ ['\\', 'n'] <:+: spelledLines cs := by
  fun_induction spelledLines cs with
  | case1 rest ih => simp [List.infix_cons_iff, ih]
  | case2 c rest hkept ih =>
    rw [List.infix_cons_iff, not_or]
    refine ⟨fun hfront => ?_, ih⟩
    obtain ⟨hc, later, hlater⟩ := List.cons_prefix_cons.mp hfront
    obtain ⟨next, rfl⟩ : ∃ next, rest = 'n' :: next := by
      have hhead := head?_of_spelledLines hlater.symm
      cases rest with
      | nil => cases hhead
      | cons d next => exact ⟨next, by simpa using hhead⟩
    exact hkept next hc.symm rfl
  | case3 => simp

/-! ## §2 Variables -/

/-- A variable is set, and its value is not blank. -/
def Supplied (value : String → Option String) (name : String) : Prop :=
  ∃ s, value name = some s ∧ ∃ c ∈ s.toList, Text.isBlank c = false

/-- What stands between the blanks of a value is what counts. -/
theorem nonBlank?_eq_some_iff {s t : String} :
    Text.nonBlank? s = some t ↔ TrimsTo s t.toList ∧ ∃ c ∈ s.toList, Text.isBlank c = false := by
  obtain ⟨core, hcore⟩ := Text.exists_trimsTo s
  have hblank : core = [] ↔ Blanks s.toList := by
    rw [← Text.trimsTo_nil_iff]
    constructor
    · rintro rfl
      exact hcore
    · intro hnil
      exact String.ofList_injective
        ((Text.trimsTo_iff.mp hcore).symm.trans (Text.trimsTo_iff.mp hnil))
  have hsome : (∃ c ∈ s.toList, Text.isBlank c = false) ↔ core ≠ [] := by
    rw [Ne, hblank, Blanks]
    simp
  rw [hsome, hcore.nonBlank?, Text.trimsTo_iff, Text.trimsTo_iff.mp hcore, String.ofList_toList]
  by_cases hne : core = [] <;> simp [hne]

theorem supplied_iff (value : String → Option String) (name : String) :
    Supplied value name ↔ ∃ t, (value name).bind Text.nonBlank? = some t := by
  simp only [Option.bind_eq_some_iff, nonBlank?_eq_some_iff, Supplied]
  constructor
  · rintro ⟨s, hs, hsolid⟩
    obtain ⟨core, hcore⟩ := Text.exists_trimsTo s
    exact ⟨String.ofList core, s, hs, by rwa [String.toList_ofList], hsolid⟩
  · rintro ⟨t, s, hs, -, hsolid⟩
    exact ⟨s, hs, hsolid⟩

namespace Credentials

theorem ofLookup_eq_some_iff {value : String → Option String} {c : Credentials} :
    ofLookup value = some c ↔ (value teamVariable).bind Text.nonBlank? = some c.team ∧
      (value keyIdVariable).bind Text.nonBlank? = some c.keyId ∧
      ∃ key, (value privateKeyVariable).bind Text.nonBlank? = some key ∧
        c.privateKey = String.ofList (spelledLines key.toList) := by
  obtain ⟨team, keyId, privateKey⟩ := c
  unfold ofLookup
  cases (value teamVariable).bind Text.nonBlank? <;>
    cases (value keyIdVariable).bind Text.nonBlank? <;>
    cases (value privateKeyVariable).bind Text.nonBlank? <;>
    simp [eq_comm]

/-- What a variable gives to the credentials: what stands between the blanks
of its value. -/
def Gives (value : String → Option String) (name : String) (core : List Char) : Prop :=
  ∃ s, value name = some s ∧ TrimsTo s core

theorem gives_of_bind {value : String → Option String} {name t : String}
    (h : (value name).bind Text.nonBlank? = some t) : Gives value name t.toList := by
  obtain ⟨s, hs, ht⟩ := Option.bind_eq_some_iff.mp h
  exact ⟨s, hs, (nonBlank?_eq_some_iff.mp ht).1⟩

/-- **Credentials are what the variables supply.** There are credentials
exactly if all three variables are set to something that is not blank. Team
and key name are what stands between the blanks. A key without backslashes
arrives as it is, whichever of its line ends were written as a backslash and
the letter n; and no key that arrives has such a pair left in it. -/
theorem ofLookup_faithful (value : String → Option String) :
    ((∃ c, ofLookup value = some c) ↔ ∀ name ∈ variableNames, Supplied value name) ∧
    (∀ c, ofLookup value = some c →
      Gives value teamVariable c.team.toList ∧ Gives value keyIdVariable c.keyId.toList) ∧
    (∀ key written, '\\' ∉ key → Pasted key written → written ≠ [] → Tight written →
      value privateKeyVariable = some (String.ofList written) →
      Supplied value teamVariable → Supplied value keyIdVariable →
      ∃ c, ofLookup value = some c ∧ c.privateKey = String.ofList key) ∧
    ∀ c, ofLookup value = some c → ¬ ['\\', 'n'] <:+: c.privateKey.toList := by
  refine ⟨?supplied, fun c hc => ?names, ?key, fun c hc => ?clean⟩
  case supplied =>
    simp only [variableNames, List.forall_mem_cons, List.not_mem_nil, false_implies, implies_true,
      and_true, supplied_iff, ofLookup_eq_some_iff]
    constructor
    · rintro ⟨c, hteam, hkeyId, key, hkey, -⟩
      exact ⟨⟨_, hteam⟩, ⟨_, hkeyId⟩, ⟨_, hkey⟩⟩
    · rintro ⟨⟨team, hteam⟩, ⟨keyId, hkeyId⟩, ⟨key, hkey⟩⟩
      exact ⟨⟨team, keyId, _⟩, hteam, hkeyId, key, hkey, rfl⟩
  case names =>
    obtain ⟨hteam, hkeyId, -⟩ := ofLookup_eq_some_iff.mp hc
    exact ⟨gives_of_bind hteam, gives_of_bind hkeyId⟩
  case key =>
    intro key written hplain hpasted hne htight hvalue hteam hkeyId
    obtain ⟨team, hteam⟩ := (supplied_iff _ _).mp hteam
    obtain ⟨keyId, hkeyId⟩ := (supplied_iff _ _).mp hkeyId
    have hwhole : TrimsTo (String.ofList written) written :=
      ⟨htight, [], [], nofun, nofun, by simp⟩
    have hread : (value privateKeyVariable).bind Text.nonBlank? = some (String.ofList written) := by
      rw [hvalue, Option.bind_some, hwhole.nonBlank?, if_neg hne]
    refine ⟨⟨team, keyId, String.ofList key⟩, ofLookup_eq_some_iff.mpr ⟨hteam, hkeyId, _, hread, ?_⟩,
      rfl⟩
    rw [String.toList_ofList, hpasted.spelledLines hplain]
  case clean =>
    obtain ⟨-, -, key, -, hkey⟩ := ofLookup_eq_some_iff.mp hc
    rw [hkey, String.toList_ofList]
    exact spelledLines_clean key.toList

/-- The variables of a provider. Only the first line end of the key is
written as a backslash and the letter n. -/
def pastedKey (name : String) : Option String :=
  if name = teamVariable then some " TEAM\t"
  else if name = keyIdVariable then some "K"
  else if name = privateKeyVariable then some "BEGIN\\nMIG\nEND"
  else none

theorem pastedKey_faithful :
    ∃ c, ofLookup pastedKey = some c ∧ c.privateKey = "BEGIN\nMIG\nEND" ∧
      Gives pastedKey teamVariable c.team.toList ∧ ¬ ['\\', 'n'] <:+: c.privateKey.toList := by
  have hpasted : Pasted "BEGIN\nMIG\nEND".toList "BEGIN\\nMIG\nEND".toList :=
    .same _ (.same _ (.same _ (.same _ (.same _ (.lineEnd (.same _ (.same _ (.same _ (.same _
      (.same _ (.same _ (.same _ .nil))))))))))))
  have hteam : Supplied pastedKey teamVariable := ⟨" TEAM\t", rfl, 'T', by decide, rfl⟩
  have hkeyId : Supplied pastedKey keyIdVariable := ⟨"K", rfl, 'K', by decide, rfl⟩
  obtain ⟨-, hnames, hkey, hclean⟩ := ofLookup_faithful pastedKey
  obtain ⟨c, hc, hprivate⟩ :=
    hkey _ _ (by decide) hpasted (by decide) (by decide) (by decide) hteam hkeyId
  exact ⟨c, hc, by simpa using hprivate, (hnames c hc).1, hclean c hc⟩

end Credentials

end Runwatch
