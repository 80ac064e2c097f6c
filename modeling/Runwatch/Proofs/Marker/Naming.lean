/-
Runwatch.Proofs.Marker.Naming — which markers a detector answers to.

A marker is put below the directory by the name of its run, and a detector
tells it by the name that the path ends in. The name of a run may be any text.
As long as it has no slash, the two agree, and a detector answers to its own
marker and to no other. But the marker of a run with a slash in its name ends
in only a part of its name: its own detector cannot tell it, and one for the
part takes it for its own.

  §1 Marker names — the name that the path of a marker ends in.
  §2 Arrivals     — which changes a detector takes for an arrival.

The main statement is `answers_by_name`.
-/
import Runwatch.Proofs.Files.Names
import Runwatch.Proofs.Marker.Vigil

namespace Runwatch.Marker

open Files (EndsIn IsTrail)
open Telemetry (Change)

/-! ## §1 Marker names -/

/-- What the name of every marker begins with. -/
def nameHead : List Char :=
  ['m', 'i', 'n', 'i', 'm', 'a', 'x', '-', 'c', 'o', 'm', 'p', 'l', 'e', 't', 'e', '-']

theorem markerFileName_toList (id : TaskRunId) :
    (markerFileName id).toList = nameHead ++ id.text.toList := by
  show ("minimax-complete-" ++ id.text).toList = _
  rw [String.toList_append]
  rfl

theorem slash_not_mem_nameHead : '/' ∉ nameHead := by decide

theorem slash_mem_name {id : TaskRunId} :
    '/' ∈ (markerFileName id).toList ↔ '/' ∈ id.text.toList := by
  rw [markerFileName_toList, List.mem_append, or_iff_right slash_not_mem_nameHead]

/-- A piece that begins as a marker's name does is a name. -/
theorem ofPiece?_nameHead (rest : List Char) :
    Files.Component.ofPiece? (nameHead ++ rest) = some (.name (String.ofList (nameHead ++ rest))) :=
  Files.ofPiece?_eq_name_iff.mpr ⟨by simp, by simp [nameHead], by simp [nameHead], by simp [nameHead]⟩

theorem ofPiece?_markerFileName (id : TaskRunId) :
    Files.Component.ofPiece? (markerFileName id).toList = some (.name (markerFileName id)) := by
  rw [markerFileName_toList, ofPiece?_nameHead, ← markerFileName_toList, String.ofList_toList]

/-- The name of a marker has a last step, whatever the name of its run is. -/
theorem exists_lastStep (id : TaskRunId) :
    ∃ step, Files.lastStep? (markerFileName id).toList = some step := by
  rw [markerFileName_toList]
  by_cases hslash : '/' ∈ id.text.toList
  · obtain ⟨before, after, hsplit, hnot⟩ := List.eq_append_cons_of_mem hslash
    have hplain : '/' ∉ nameHead ++ before := by
      simpa [slash_not_mem_nameHead] using hnot
    rw [hsplit, ← List.append_assoc, Files.lastStep?_append, Files.lastStep?_of_not_mem hplain,
      ofPiece?_nameHead]
    cases Files.lastStep? after with
    | none => exact ⟨_, rfl⟩
    | some step => exact ⟨step, rfl⟩
  · have hplain : '/' ∉ nameHead ++ id.text.toList := by
      simpa [slash_not_mem_nameHead] using hslash
    exact ⟨_, (Files.lastStep?_of_not_mem hplain).trans (ofPiece?_nameHead _)⟩

/-- The marker of the run `a` ends in the name of that of `b`: `b` has no
slash, and `a` is `b`, or ends in a slash and the name of the marker of `b`,
and behind that there may be slashes and dots that mean nothing. -/
def Stands (a b : TaskRunId) : Prop :=
  '/' ∉ b.text.toList ∧ ∃ trail, IsTrail trail ∧
    (a.text.toList = b.text.toList ++ trail ∨
      ∃ above, a.text.toList = above ++ '/' :: (nameHead ++ b.text.toList) ++ trail)

/-- A text without slash that stands in front of one with a slash stands in
front of that slash. -/
theorem exists_of_append_eq {head xs ys zs : List Char} (hhead : '/' ∉ head)
    (h : head ++ xs = ys ++ '/' :: zs) : ∃ above, ys = head ++ above ∧ xs = above ++ '/' :: zs := by
  rcases List.append_eq_append_iff.mp h with ⟨above, hys, hxs⟩ | ⟨more, hmore, hxs⟩
  · exact ⟨above, hys, hxs⟩
  · cases more with
    | nil => exact ⟨[], by simpa using hmore.symm, by simpa using hxs.symm⟩
    | cons c more =>
      obtain ⟨rfl, -⟩ := List.cons.inj hxs
      simp [hmore] at hhead

/-- The last step of a marker's name is the name of the marker of `b` just if
it stands for that. -/
theorem lastStep?_eq_iff (a b : TaskRunId) :
    Files.lastStep? (markerFileName a).toList = some (.name (markerFileName b)) ↔ Stands a b := by
  constructor
  · intro h
    obtain ⟨hslash, above, trail, hends⟩ := Files.exists_endsIn _ h
    refine ⟨fun hmem => hslash (slash_mem_name.mpr hmem), trail, hends.trail, ?_⟩
    have heq := hends.eq
    rw [markerFileName_toList, markerFileName_toList] at heq
    rcases hends.above with rfl | ⟨more, rfl⟩
    · left
      simpa [List.append_assoc] using heq
    · right
      have hcut : nameHead ++ a.text.toList =
          more ++ '/' :: (nameHead ++ b.text.toList ++ trail) := by simpa using heq
      obtain ⟨above, -, ha⟩ := exists_of_append_eq slash_not_mem_nameHead hcut
      exact ⟨above, by simpa using ha⟩
  · rintro ⟨hslash, trail, htrail, ha⟩
    have hplain : '/' ∉ (markerFileName b).toList := fun hmem => hslash (slash_mem_name.mp hmem)
    have hends : ∃ above, EndsIn (markerFileName a).toList (markerFileName b) above trail := by
      rw [markerFileName_toList]
      rcases ha with ha | ⟨above, ha⟩
      · exact ⟨[], by simp [ha, markerFileName_toList], .inl rfl, htrail⟩
      · exact ⟨nameHead ++ above ++ ['/'], by simp [ha, markerFileName_toList], .inr ⟨_, rfl⟩,
          htrail⟩
    obtain ⟨above, hends⟩ := hends
    exact hends.lastStep? hplain (ofPiece?_markerFileName b)

/-- A marker of a run without a slash stands for itself alone. -/
theorem stands_iff_eq {a : TaskRunId} (h : '/' ∉ a.text.toList) (b : TaskRunId) :
    Stands a b ↔ a = b := by
  constructor
  · rintro ⟨-, trail, htrail, ha | ⟨above, ha⟩⟩
    · have hnot : '/' ∉ trail := by
        intro hmem
        exact h (by simp [ha, hmem])
      obtain rfl := htrail.eq_nil_of_not_mem hnot
      obtain ⟨a⟩ := a
      obtain ⟨b⟩ := b
      exact congrArg TaskRunId.mk (String.toList_inj.mp (by simpa using ha))
    · exact absurd (by simp [ha]) h
  · rintro rfl
    exact ⟨h, [], .nil, .inl (by simp)⟩

/-- The marker of a run with a slash does not stand for itself. -/
theorem stands_self_iff (a : TaskRunId) : Stands a a ↔ '/' ∉ a.text.toList :=
  ⟨fun h => h.1, fun h => (stands_iff_eq h a).mpr rfl⟩

/-! ## §2 Arrivals -/

/-- Two texts for one path. -/
def SamePath (p q : String) : Prop := Files.components p = Files.components q

instance (p q : String) : Decidable (SamePath p q) := inferInstanceAs (Decidable (_ = _))

/-- A change makes a detector queue one more arrival. -/
def Detector.Signals (d : Detector) (c : Change) : Prop :=
  ∃ n, d.arrivals = some n ∧ d.notice c = { d with arrivals := some (n + 1) }

/-- A detector that watches for the marker of a run, with so many arrivals
queued. -/
def watcher (l : Layout) (id : TaskRunId) (arrivals : Nat) (locked : Bool) : Detector :=
  (Standing.watching arrivals).detector (l.markerPath id) (markerFileName id) locked

theorem start_eq_watcher (l : Layout) (id : TaskRunId) :
    Detector.start l.lifecycleDir id false (.ok ()) = .ok (watcher l id 0 false) := rfl

theorem notice_watcher (l : Layout) (id : TaskRunId) (n : Nat) (locked : Bool) (c : Change) :
    (watcher l id n locked).notice c =
      watcher l id (if c.brings (markerFileName id) then n + 1 else n) locked := by
  rw [watcher, Standing.notice_detector]
  rfl

theorem signals_watcher_iff (l : Layout) (id : TaskRunId) (n : Nat) (locked : Bool) (c : Change) :
    (watcher l id n locked).Signals c ↔ c.brings (markerFileName id) = true := by
  unfold Detector.Signals
  rw [notice_watcher]
  cases c.brings (markerFileName id) <;> simp [watcher, Standing.detector]

/-- A path that is the marker's has its last step. -/
theorem hasFileName_iff {l : Layout} {a b : TaskRunId} {p : String}
    (hp : SamePath p (l.markerPath a)) :
    Telemetry.hasFileName p (markerFileName b) = true ↔ Stands a b := by
  have habsolute : Files.isAbsolute (markerFileName a) = false := by
    rw [Files.isAbsolute, markerFileName_toList]
    rfl
  obtain ⟨step, hstep⟩ := exists_lastStep a
  have hjoin : Files.lastStep? (l.markerPath a).toList = some step :=
    Files.lastStep?_join habsolute hstep
  have hname : Files.fileName? p = Files.fileName? (l.markerPath a) := by
    rw [Files.fileName?, hp, Files.fileName?]
  rw [Telemetry.hasFileName, beq_iff_eq, hname, Files.fileName?_eq_some_iff hjoin,
    ← lastStep?_eq_iff, hstep, Option.some.injEq]

/-- What a detector for the run `b` makes of changes with a path, which is that
of the marker of the run `a`. -/
structure AnswersTo (d : Detector) (p : String) (a b : TaskRunId) : Prop where
  created : d.Signals ⟨.created, [p]⟩ ↔ Stands a b
  renamed : d.Signals ⟨.renamedTo, [p]⟩ ↔ Stands a b
  renamedBoth : ∀ source, d.Signals ⟨.renamedBoth, [source, p]⟩ ↔ Stands a b
  /-- Whatever else was touched with it, or was renamed to something else. -/
  touched : ∀ ps, d.notice ⟨.touched, ps⟩ = d
  renamedFrom : ∀ ps, d.notice ⟨.renamedFrom, ps⟩ = d
  /-- Where it is the source of a rename only the target counts. -/
  source : d.notice ⟨.renamedBoth, [p]⟩ = d ∧
    ∀ target, d.notice ⟨.renamedBoth, [p, target]⟩ = d.notice ⟨.renamedTo, [target]⟩

/-- **A detector tells markers by the name that their paths end in.** While it
watches for the marker of `b`, a creation of the path of the marker of `a` and
a rename to it signal an arrival just if that path ends in the name of the
marker of `b`; a change that touches it in another way, or in which it is the
source of a rename, does not. For the marker of a run without slash this means
that the run is `b`; but no detector for a run with a slash answers to the
marker of that run. -/
theorem answers_by_name (l : Layout) (a b : TaskRunId) (arrivals : Nat) (locked : Bool)
    {p : String} (hp : SamePath p (l.markerPath a)) :
    Detector.start l.lifecycleDir b false (.ok ()) = .ok (watcher l b 0 false) ∧
    AnswersTo (watcher l b arrivals locked) p a b ∧
    ('/' ∉ a.text.toList → (Stands a b ↔ a = b)) ∧
    (Stands a a ↔ '/' ∉ a.text.toList) := by
  have hname := hasFileName_iff (b := b) hp
  have hquiet : ∀ c : Change, c.brings (markerFileName b) = false →
      (watcher l b arrivals locked).notice c = watcher l b arrivals locked := by
    intro c hc
    rw [notice_watcher, hc]
    rfl
  refine ⟨start_eq_watcher l b, ?_, fun h => stands_iff_eq h b, stands_self_iff a⟩
  constructor
  case created =>
    rw [signals_watcher_iff]
    simpa [Change.brings, Change.arrived] using hname
  case renamed =>
    rw [signals_watcher_iff]
    simpa [Change.brings, Change.arrived] using hname
  case renamedBoth =>
    intro source
    rw [signals_watcher_iff]
    simpa [Change.brings, Change.arrived] using hname
  case touched =>
    intro ps
    exact hquiet _ rfl
  case renamedFrom =>
    intro ps
    exact hquiet _ rfl
  case source =>
    refine ⟨hquiet _ rfl, fun target => ?_⟩
    rw [notice_watcher, notice_watcher]
    rfl

/-- A layout with the directory `/d`. -/
def flat : Layout := ⟨"/d", "/d"⟩

/-- A directory is made whose path is that of the marker of the run `x/`, and
of the run `x` as well. The detector for `x` takes it for its marker; the one
for `x/` does not. -/
theorem slashAtEnd_answers :
    SamePath "/d/minimax-complete-x" (flat.markerPath ⟨"x/"⟩) ∧
    (watcher flat ⟨"x"⟩ 0 false).Signals ⟨.created, ["/d/minimax-complete-x"]⟩ ∧
    ¬ (watcher flat ⟨"x/"⟩ 0 false).Signals ⟨.created, ["/d/minimax-complete-x"]⟩ := by
  have hp : SamePath "/d/minimax-complete-x" (flat.markerPath ⟨"x/"⟩) := by decide
  obtain ⟨-, hother, -⟩ := answers_by_name flat ⟨"x/"⟩ ⟨"x"⟩ 0 false hp
  obtain ⟨-, hown, -, hself⟩ := answers_by_name flat ⟨"x/"⟩ ⟨"x/"⟩ 0 false hp
  refine ⟨hp, hother.created.mpr ?_, ?_⟩
  · exact ⟨by decide, ['/'], .slash .nil, .inl (by decide)⟩
  · rw [hown.created, hself]
    decide

/-- Of two detectors the one whose marker is reported does not answer, and the
other one does. -/
theorem answers_to_other_marker :
    let own : TaskRunId := ⟨"x/"⟩
    let other : TaskRunId := ⟨"x"⟩
    let c : Change := ⟨.created, ["/d/minimax-complete-x"]⟩
    (∀ p ∈ c.arrived, SamePath p (flat.markerPath own)) ∧ own ≠ other ∧
      ¬ (watcher flat own 0 false).Signals c ∧ (watcher flat other 0 false).Signals c := by
  simp only [signals_watcher_iff]
  decide

end Runwatch.Marker
