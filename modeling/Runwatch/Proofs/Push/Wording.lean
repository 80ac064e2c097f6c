/-
Runwatch.Proofs.Push.Wording — what a notification about a run says.

A title and the error of a failed run come from others and may be anything:
absent, blank, too long, with blanks around them. Whatever they are, the body
that a device shows is not empty and has no blank at its ends.

  §1 Parts  — what of the title (`TitlePart`) and of the error (`ErrorPart`)
              is shown; there is always exactly one such part.
  §2 Bodies — how a body is put together from the two (`Body`), and that the
              notification has this body.

The main statement is `RunNotice.payload_is_presentable`.
-/
import Runwatch.Proofs.Json.Records
import Runwatch.Proofs.Text.Blank
import Runwatch.Push.Notice

namespace Runwatch.Push

open Json (Members)
open Text (Blanks Tight TrimsTo)

/-! ## §1 Parts -/

/-- What a title gives to a body: nothing if it is absent or blank, else what
stands between its blanks, cut to 119 characters and an ellipsis if that has
more than 120. -/
inductive TitlePart : Option String → List Char → Prop where
  | absent : TitlePart none []
  | blank {s : String} (h : Blanks s.toList) : TitlePart (some s) []
  | whole {s : String} {core : List Char} (h : TrimsTo s core) (hne : core ≠ [])
      (hfits : core.length ≤ 120) : TitlePart (some s) core
  | cut {s : String} {core : List Char} (h : TrimsTo s core) (hlong : 120 < core.length) :
      TitlePart (some s) (core.take 119 ++ ['…'])

/-- What an outcome gives to a body: what stands between the blanks of the
error of a failed run, in full. -/
inductive ErrorPart : RunOutcome → List Char → Prop where
  | completed : ErrorPart .completed []
  | absent : ErrorPart (.failed none) []
  | blank {e : String} (h : Blanks e.toList) : ErrorPart (.failed (some e)) []
  | error {e : String} {core : List Char} (h : TrimsTo e core) (hne : core ≠ []) :
      ErrorPart (.failed (some e)) core

/-- The title as a notification shows it. -/
def shownTitle (title : Option String) : Option String :=
  (title.bind Text.nonBlank?).map shortTitle

/-- The error that a notification takes from an outcome. -/
def shownError : RunOutcome → Option String
  | .completed => none
  | .failed error => error.bind Text.nonBlank?

/-- A part as a text that is not there if it is empty. -/
def Part (shown : Option String) (part : List Char) : Prop :=
  shown = if part = [] then none else some (String.ofList part)

theorem shortTitle_ofList (core : List Char) :
    shortTitle (String.ofList core) =
      String.ofList (if core.length ≤ 120 then core else core.take 119 ++ ['…']) := by
  rw [shortTitle, String.length_ofList, titleLimit]
  split
  · rfl
  · rw [String.toList_ofList]

/-- There is one part of every title, and the notification shows that. -/
theorem exists_titlePart (title : Option String) :
    ∃ part, TitlePart title part ∧ Part (shownTitle title) part := by
  cases title with
  | none => exact ⟨[], .absent, rfl⟩
  | some s =>
    obtain ⟨core, hcore⟩ := Text.exists_trimsTo s
    by_cases hne : core = []
    · subst hne
      refine ⟨[], .blank (Text.trimsTo_nil_iff.mp hcore), ?_⟩
      simp [Part, shownTitle, hcore.nonBlank?]
    · have hshown : shownTitle (some s) = some (shortTitle (String.ofList core)) := by
        simp [shownTitle, hcore.nonBlank?, hne]
      rw [shortTitle_ofList] at hshown
      by_cases hfits : core.length ≤ 120
      · refine ⟨core, .whole hcore hne hfits, ?_⟩
        rw [Part, if_neg hne, hshown, if_pos hfits]
      · refine ⟨core.take 119 ++ ['…'], .cut hcore (by omega), ?_⟩
        rw [Part, if_neg (by simp), hshown, if_neg hfits]

theorem exists_errorPart (outcome : RunOutcome) :
    ∃ part, ErrorPart outcome part ∧ Part (shownError outcome) part := by
  cases outcome with
  | completed => exact ⟨[], .completed, rfl⟩
  | failed error =>
    cases error with
    | none => exact ⟨[], .absent, rfl⟩
    | some e =>
      obtain ⟨core, hcore⟩ := Text.exists_trimsTo e
      have hshown : Part (shownError (.failed (some e))) core := by
        simp only [Part, shownError, Option.bind_some, hcore.nonBlank?]
      by_cases hne : core = []
      · subst hne
        exact ⟨[], .blank (Text.trimsTo_nil_iff.mp hcore), hshown⟩
      · exact ⟨core, .error hcore hne, hshown⟩

/-- No part has a blank at its ends: a title that is cut begins as it did and
ends in the ellipsis. -/
theorem TitlePart.tight {title : Option String} {part : List Char} (h : TitlePart title part) :
    Tight part := by
  cases h with
  | absent | blank => exact Text.tight_nil
  | whole h => exact h.1
  | @cut s core h hlong =>
    constructor
    · intro c hc
      refine h.1.1 c ?_
      cases core with
      | nil => simp at hlong
      | cons first rest => simpa using hc
    · intro c hc
      obtain rfl : '…' = c := by simpa using hc
      decide

theorem ErrorPart.tight {outcome : RunOutcome} {part : List Char} (h : ErrorPart outcome part) :
    Tight part := by
  cases h with
  | completed | absent | blank => exact Text.tight_nil
  | error h => exact h.1

/-! ## §2 Bodies -/

/-- How a body is put together from what is shown of the title and of the
error: one behind the other, or the one that is there, or else a fixed
sentence. -/
inductive Body : RunOutcome → List Char → List Char → List Char → Prop where
  | both {outcome : RunOutcome} {title error : List Char} (htitle : title ≠ [])
      (herror : error ≠ []) : Body outcome title error (title ++ ':' :: ' ' :: error)
  | titleOnly {outcome : RunOutcome} {title : List Char} (htitle : title ≠ []) :
      Body outcome title [] title
  | errorOnly {outcome : RunOutcome} {error : List Char} (herror : error ≠ []) :
      Body outcome [] error error
  | completed : Body .completed [] [] "Your task run has finished.".toList
  | failed {error : Option String} : Body (.failed error) [] [] "Your task run failed.".toList

/-- A body that is put together from tight parts is tight and not empty. -/
theorem Body.tight {outcome : RunOutcome} {title error body : List Char}
    (h : Body outcome title error body) (htitle : Tight title) (herror : Tight error) :
    body ≠ [] ∧ Tight body := by
  cases h with
  | both hne hne' =>
    refine ⟨by simp, ?_, ?_⟩
    · intro c hc
      refine htitle.1 c ?_
      cases title with
      | nil => exact absurd rfl hne
      | cons first rest => simpa using hc
    · intro c hc
      refine herror.2 c ?_
      cases error with
      | nil => exact absurd rfl hne'
      | cons first rest => simpa [List.getLast?_append] using hc
  | titleOnly hne => exact ⟨hne, htitle⟩
  | errorOnly hne => exact ⟨hne, herror⟩
  | completed => exact ⟨by decide, by decide⟩
  | failed => exact ⟨by decide, by decide⟩

/-- The sentence for an outcome is put together from its parts. -/
theorem body_sentence {outcome : RunOutcome} {summary : Option String} {title error : List Char}
    (htitle : Part summary title) (herror : Part (shownError outcome) error)
    (hcompleted : outcome = .completed → error = []) :
    Body outcome title error (outcome.sentence summary).toList := by
  rw [Part] at htitle herror
  subst htitle
  cases outcome with
  | completed =>
    obtain rfl := hcompleted rfl
    by_cases hne : title = []
    · subst hne
      exact .completed
    · simpa [RunOutcome.sentence, hne] using Body.titleOnly hne
  | failed e =>
    have hbind : e.bind Text.nonBlank? = if error = [] then none else some (String.ofList error) :=
      herror
    by_cases hne : title = [] <;> by_cases hne' : error = []
    · subst hne hne'
      simpa [RunOutcome.sentence, hbind] using Body.failed
    · subst hne
      simpa [RunOutcome.sentence, hbind, hne'] using Body.errorOnly hne'
    · subst hne'
      simpa [RunOutcome.sentence, hbind, hne] using Body.titleOnly hne
    · simpa [RunOutcome.sentence, hbind, hne, hne'] using Body.both hne hne'

/-- What is said of the notification `p` about a run that may have a title. -/
structure IsPresentable (n : RunNotice) (title : Option String) (p : Payload) : Prop where
  nonempty : p.body ≠ ""
  tight : Tight p.body.toList
  /-- The body is put together from the parts of title and error. -/
  body : ∃ shown said, TitlePart title shown ∧ ErrorPart n.outcome said ∧
    Body n.outcome shown said p.body.toList
  /-- A blank title counts as absent. -/
  blankTitle : ∀ s, title = some s → Blanks s.toList → p = n.payload none
  /-- A blank error counts as absent. -/
  blankError : ∀ e, n.outcome = .failed (some e) → Blanks e.toList →
    p = { n with outcome := .failed none }.payload title
  data : p.data = [("taskRunId", .string n.taskRun.text), ("type", .string n.outcome.dataType)]

/-- **A notification about a run can always be shown**, whatever its title and
its error are. -/
theorem RunNotice.payload_is_presentable (n : RunNotice) (title : Option String) :
    IsPresentable n title (n.payload title) := by
  obtain ⟨shown, htitle, hshown⟩ := exists_titlePart title
  obtain ⟨said, herror, hsaid⟩ := exists_errorPart n.outcome
  have hcompleted : n.outcome = .completed → said = [] := by
    intro h
    rw [h] at herror
    cases herror
    rfl
  have hbody : Body n.outcome shown said (n.payload title).body.toList :=
    body_sentence hshown hsaid hcompleted
  obtain ⟨hne, htight⟩ := hbody.tight htitle.tight herror.tight
  refine ⟨?nonempty, htight, ⟨shown, said, htitle, herror, hbody⟩, ?blankTitle, ?blankError, ?data⟩
  case nonempty =>
    intro hempty
    exact hne (by simp [hempty])
  case blankTitle =>
    intro s hs hblank
    subst hs
    have hnone := (Text.trimsTo_nil_iff.mpr hblank).nonBlank?
    simp [RunNotice.payload, hnone]
  case blankError =>
    intro e he hblank
    have hnone := (Text.trimsTo_nil_iff.mpr hblank).nonBlank?
    simp [RunNotice.payload, he, RunOutcome.sentence, RunOutcome.headline, RunOutcome.dataType,
      hnone]
  case data =>
    show Members.insert "taskRunId" _ [("type", _)] = _
    have hfirst : "taskRunId" < "type" := by decide
    refine Members.insert_of_first fun m hm => ?_
    obtain rfl := List.mem_singleton.mp hm
    exact hfirst

/-- A title with blanks around it, and an error with one inside. -/
example : ((RunNotice.mk ⟨"run-42"⟩ ⟨"ada"⟩ (.failed (some "exit  137\n"))).payload
    (some " Fix\u3000")).body = "Fix: exit  137" := by decide

end Runwatch.Push
