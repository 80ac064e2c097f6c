/-
Runwatch.Proofs.Marker.Grain — waits that run side by side.

Where waits run on several threads, nothing but the lock keeps their accesses
apart: between any two steps of one wait (`Stage.step`) there may be steps of
others, changes in the directory and stops. `Vigil` has whole polls for its
steps; here each access is one.

A wait reads whether the detector is resolved and then, in another step,
whether it is cancelled. The wait that takes the arrival resolves and then
cancels, so that another one may read the first flag before and the second one
behind that (`Overtaken`). It is told that the detector was stopped, although
nobody has stopped it. There is no other way to be told so without a stop: the
lock is held by one wait at a time, and whoever holds it reads again whether
the detector is resolved.

  §1 Steps     — what a single step does to the lock and to the flags.
  §2 Grains    — the moves, and runs of them.
  §3 Reads     — what a wait has seen on its way (`SawOpen`, `Overtaken`).
  §4 Soundness — what a move keeps while nobody stops (`Sound.move`), and so
                 each run (`Sound.run`).
  §5 Stops     — who is told of a stop (`stopped_is_overtaken`).
-/
import Runwatch.Proofs.Marker.Vigil

namespace Runwatch.Marker

open Telemetry (Change WatchFault)

/-! ## §1 Steps -/

/-- Only the step that accepts an arrival resolves. -/
theorem Stage.step_resolved {d d' : Detector} {s s' : Stage} (h : s.step d = some (d', s')) :
    d'.resolved = (d.resolved || s == .accepting) := by
  cases s <;> grind [Stage.step]

/-- A step takes the lock only if it is free, and gives back none but its
own. -/
theorem Stage.step_locked {d d' : Detector} {s s' : Stage} (h : s.step d = some (d', s'))
    (hown : s.holdsLock = true → d.locked = true) :
    (s'.holdsLock = true → s.holdsLock = true ∨ d.locked = false) ∧
      d'.locked = (s'.holdsLock || (d.locked && !s.holdsLock)) := by
  cases s <;> grind [Stage.step, Stage.holdsLock]

theorem Stage.step_queueing {d d' : Detector} {s' : Stage}
    (h : Stage.queueing.step d = some (d', s')) :
    d' = { d with locked := true } ∧ s' = .holding := by
  simp only [step] at h
  split at h
  · cases h
  · obtain ⟨rfl, rfl⟩ := Prod.mk.inj (Option.some.inj h)
    exact ⟨rfl, rfl⟩

/-- At a detector that watches, a wait that selects goes on with an arrival
only. -/
theorem Stage.step_selecting {d d' : Detector} {s' : Stage} (hlive : d.cancelled = false)
    (hwatching : d.watching = true) (hqueue : d.arrivals ≠ none)
    (h : Stage.selecting.step d = some (d', s')) :
    ∃ n, d.arrivals = some (n + 1) ∧ d' = { d with arrivals := some n } ∧ s' = .accepting := by
  simp only [step] at h
  rw [if_neg (Bool.eq_false_iff.mp hlive)] at h
  split at h
  · next hnone => exact absurd hnone hqueue
  · rw [if_pos hwatching] at h
    cases h
  · next n hsome =>
    obtain ⟨rfl, rfl⟩ := Prod.mk.inj (Option.some.inj h)
    exact ⟨n, hsome, rfl, rfl⟩

/-! ## §2 Grains -/

/-- A detector and the waits on it, in the order of their beginnings. -/
structure Grain where
  detector : Detector
  waits : List Stage

/-- What may come next: a wait begins, takes its next step, a change is
reported, somebody stops the detector. -/
inductive Move where
  | start
  | step (i : Nat)
  | notice (c : Change)
  | stop
  deriving DecidableEq, Repr

namespace Grain

/-- The next step of a wait, if there is one. -/
def step (g : Grain) (i : Nat) : Grain :=
  match g.waits[i]? with
  | none => g
  | some s =>
    match s.step g.detector with
    | none => g
    | some (d, s') => ⟨d, g.waits.set i s'⟩

def move (g : Grain) : Move → Grain
  | .start => { g with waits := g.waits ++ [.entered] }
  | .step i => g.step i
  | .notice c => { g with detector := g.detector.notice c }
  | .stop => { g with detector := g.detector.stop }

def run (g : Grain) (moves : List Move) : Grain := moves.foldl move g

/-- A detector without waits. -/
def ofDetector (d : Detector) : Grain := ⟨d, []⟩

/-- How a wait ended. -/
def outcome? (g : Grain) (i : Nat) : Option Outcome := g.waits[i]?.bind Stage.outcome?

theorem run_concat (g : Grain) (moves : List Move) (m : Move) :
    g.run (moves ++ [m]) = (g.run moves).move m := by
  unfold run
  rw [List.foldl_append]
  rfl

/-- A wait makes its step, or is not there or cannot go on. -/
theorem step_cases (g : Grain) (i : Nat) :
    (∃ s d s', g.waits[i]? = some s ∧ s.step g.detector = some (d, s') ∧
      g.step i = ⟨d, g.waits.set i s'⟩) ∨ g.step i = g := by
  cases hs : g.waits[i]? with
  | none =>
    refine .inr ?_
    unfold step
    rw [hs]
  | some s =>
    cases hstep : s.step g.detector with
    | none =>
      refine .inr ?_
      unfold step
      rw [hs]
      simp only [hstep]
    | some next =>
      refine .inl ⟨s, next.1, next.2, rfl, hstep, ?_⟩
      unfold step
      rw [hs]
      simp only [hstep]

theorem getElem?_set_cases {waits : List Stage} {i j : Nat} {s t : Stage}
    (h : (waits.set i s)[j]? = some t) : i = j ∧ t = s ∨ i ≠ j ∧ waits[j]? = some t := by
  rw [List.getElem?_set] at h
  split at h
  · next heq =>
    refine .inl ⟨heq, ?_⟩
    split at h
    · exact (Option.some.inj h).symm
    · cases h
  · next hne => exact .inr ⟨hne, h⟩

theorem outcome?_eq_some {g : Grain} {i : Nat} {o : Outcome} :
    g.outcome? i = some o ↔ g.waits[i]? = some (.finished o) := by
  unfold outcome?
  rw [Option.bind_eq_some_iff]
  constructor
  · rintro ⟨s, hs, ho⟩
    rw [hs]
    cases s with
    | finished o' =>
      obtain rfl := Option.some.inj ho
      rfl
    | _ => cases ho
  · exact fun h => ⟨_, h, rfl⟩

/-! ## §3 Reads -/

/-- A change that brings the file was reported. -/
def Arrived (name : String) (moves : List Move) : Prop :=
  ∃ c, .notice c ∈ moves ∧ c.brings name = true

/-- Wait `i` has read, at its beginning, that the detector is not resolved. -/
def SawOpen (g : Grain) (moves : List Move) (i : Nat) : Prop :=
  ∃ before mid, moves = before ++ .step i :: mid ∧
    (g.run before).waits[i]? = some .entered ∧ (g.run before).detector.resolved = false

/-- Wait `i` has read that the detector is not resolved, and behind that, when
another one had resolved it and cancelled, that it is cancelled. -/
def Overtaken (g : Grain) (moves : List Move) (i : Nat) : Prop :=
  ∃ first later, moves = first ++ .step i :: later ∧ SawOpen g first i ∧
    (g.run first).waits[i]? = some .unresolved ∧
    (g.run first).detector.resolved = true ∧ (g.run first).detector.cancelled = true

section

variable {g : Grain} {moves : List Move} {i : Nat} {name : String}

theorem Arrived.concat (h : Arrived name moves) (m : Move) : Arrived name (moves ++ [m]) := by
  obtain ⟨c, hc, hbrings⟩ := h
  exact ⟨c, List.mem_append_left _ hc, hbrings⟩

theorem SawOpen.concat (h : SawOpen g moves i) (m : Move) : SawOpen g (moves ++ [m]) i := by
  obtain ⟨before, mid, rfl, hread⟩ := h
  exact ⟨before, mid ++ [m], by simp, hread⟩

theorem Overtaken.concat (h : Overtaken g moves i) (m : Move) : Overtaken g (moves ++ [m]) i := by
  obtain ⟨first, later, rfl, hread⟩ := h
  exact ⟨first, later ++ [m], by simp, hread⟩

end

/-! ## §4 Soundness -/

/-- What holds of a detector while nobody has stopped it: each flag that
tells of an end is set behind the one that tells of success, and success comes
of an arrival. -/
structure Flags (first : Detector) (past : List Move) (d : Detector) : Prop where
  fileName : d.fileName = first.fileName
  cancelled : d.cancelled = true → d.resolved = true
  watching : d.watching = false → d.resolved = true
  arrivals : d.arrivals = none → d.resolved = true
  queued : ∀ n, d.arrivals = some (n + 1) → Arrived first.fileName past
  resolved : d.resolved = true → first.resolved = true ∨ Arrived first.fileName past

theorem Flags.concat {first d : Detector} {past : List Move} (h : Flags first past d) (m : Move) :
    Flags first (past ++ [m]) d where
  fileName := h.fileName
  cancelled := h.cancelled
  watching := h.watching
  arrivals := h.arrivals
  queued n hn := (h.queued n hn).concat m
  resolved hr := (h.resolved hr).imp_right (·.concat m)

theorem Flags.notice {first d : Detector} {past : List Move} (h : Flags first past d)
    (c : Change) : Flags first (past ++ [.notice c]) (d.notice c) := by
  unfold Detector.notice
  split
  · next hit =>
    simp only [Bool.and_eq_true] at hit
    have harrived : Arrived first.fileName (past ++ [.notice c]) :=
      ⟨c, List.mem_append_right _ List.mem_cons_self, h.fileName ▸ hit.2⟩
    exact {
      fileName := h.fileName
      cancelled := h.cancelled
      watching := h.watching
      arrivals := fun hnone => h.arrivals (Option.map_eq_none_iff.mp hnone)
      queued := fun _ _ => harrived
      resolved := fun _ => .inr harrived }
  · exact h.concat _

/-- Where wait `i` may stand while nobody has stopped the detector. -/
def Place (g : Grain) (past : List Move) (resolved : Bool) (i : Nat) : Stage → Prop
  | .entered | .queueing | .holding => True
  | .unresolved => SawOpen g past i
  -- It has read so with the lock in its hands, and so it stays.
  | .looking | .selecting => resolved = false
  | .accepting => resolved = false ∧ Arrived g.detector.fileName past
  | .cancelling | .closing | .dropping | .leaving .resolved | .finished .resolved => resolved = true
  | .leaving .stopped => False
  | .finished .stopped => resolved = true ∧ Overtaken g past i

/-- Success stays, and for one that holds the lock nothing changes. -/
theorem Place.concat {g : Grain} {past : List Move} {r r' : Bool} {i : Nat} {s : Stage}
    (h : Place g past r i s) (m : Move) (hstays : r = true → r' = true)
    (hsame : s.holdsLock = true → r' = r) : Place g (past ++ [m]) r' i s := by
  cases s with
  | entered | queueing | holding => trivial
  | unresolved => exact SawOpen.concat h m
  | looking | selecting => exact (hsame rfl).trans h
  | accepting => exact ⟨(hsame rfl).trans h.1, h.2.concat m⟩
  | cancelling | closing | dropping => exact hstays h
  | leaving o =>
    cases o with
    | resolved => exact hstays h
    | stopped => exact h.elim
  | finished o =>
    cases o with
    | resolved => exact hstays h
    | stopped => exact ⟨hstays h.1, h.2.concat m⟩

/-- What every move keeps. -/
structure Sound (g : Grain) (past : List Move) : Prop where
  flags : Flags g.detector past (g.run past).detector
  locked : ∀ (i : Nat) (s : Stage), (g.run past).waits[i]? = some s → s.holdsLock = true →
    (g.run past).detector.locked = true
  alone : ∀ (i j : Nat) (s t : Stage), (g.run past).waits[i]? = some s →
    (g.run past).waits[j]? = some t → s.holdsLock = true → t.holdsLock = true → i = j
  place : ∀ (i : Nat) (s : Stage), (g.run past).waits[i]? = some s →
    Place g past (g.run past).detector.resolved i s

namespace Sound

variable {g : Grain} {past : List Move} {i : Nat} {s s' : Stage} {d : Detector}

/-- Nothing but an arrival is there for a wait that selects. -/
theorem step_selecting (h : Sound g past) (hs : (g.run past).waits[i]? = some .selecting)
    (hstep : Stage.selecting.step (g.run past).detector = some (d, s')) :
    ∃ n, (g.run past).detector.arrivals = some (n + 1) ∧
      d = { (g.run past).detector with arrivals := some n } ∧ s' = .accepting := by
  have hopen : (g.run past).detector.resolved = false := h.place i _ hs
  have hunset {p : Prop} (himp : p → (g.run past).detector.resolved = true) : ¬ p := by
    intro hp
    exact absurd ((himp hp).symm.trans hopen) nofun
  refine Stage.step_selecting ?_ ?_ (hunset h.flags.arrivals) hstep
  · exact Bool.eq_false_iff.mpr (hunset h.flags.cancelled)
  · exact Bool.of_not_eq_false (hunset h.flags.watching)

/-- A step of a wait leaves the flags in order. -/
theorem flags_step (h : Sound g past) (hs : (g.run past).waits[i]? = some s)
    (hstep : s.step (g.run past).detector = some (d, s')) : Flags g.detector past d := by
  obtain ⟨hname, hcancelled, hwatching, harrivals, hqueued, hresolved⟩ := h.flags
  have hplace := h.place i s hs
  cases s with
  | entered | unresolved | holding | looking =>
    obtain ⟨rfl, -⟩ := Prod.mk.inj (Option.some.inj hstep)
    exact h.flags
  | finished o => cases hstep
  | queueing =>
    obtain ⟨rfl, -⟩ := Stage.step_queueing hstep
    exact ⟨hname, hcancelled, hwatching, harrivals, hqueued, hresolved⟩
  | selecting =>
    obtain ⟨n, hn, rfl, -⟩ := h.step_selecting hs hstep
    exact ⟨hname, hcancelled, hwatching, nofun, fun _ _ => hqueued n hn, hresolved⟩
  | accepting =>
    obtain ⟨rfl, -⟩ := Prod.mk.inj (Option.some.inj hstep)
    exact ⟨hname, fun _ => rfl, fun _ => rfl, fun _ => rfl, hqueued, fun _ => .inr hplace.2⟩
  | cancelling =>
    obtain ⟨rfl, -⟩ := Prod.mk.inj (Option.some.inj hstep)
    exact ⟨hname, fun _ => hplace, hwatching, harrivals, hqueued, hresolved⟩
  | closing =>
    obtain ⟨rfl, -⟩ := Prod.mk.inj (Option.some.inj hstep)
    exact ⟨hname, hcancelled, fun _ => hplace, harrivals, hqueued, hresolved⟩
  | dropping =>
    obtain ⟨rfl, -⟩ := Prod.mk.inj (Option.some.inj hstep)
    exact ⟨hname, hcancelled, hwatching, fun _ => hplace, nofun, hresolved⟩
  | leaving o =>
    obtain ⟨rfl, -⟩ := Prod.mk.inj (Option.some.inj hstep)
    exact ⟨hname, hcancelled, hwatching, harrivals, hqueued, hresolved⟩

/-- A step of a wait takes it to its place. The read of the second flag is the
only one that may come too late. -/
theorem place_step (h : Sound g past) (hs : (g.run past).waits[i]? = some s)
    (hstep : s.step (g.run past).detector = some (d, s')) :
    Place g (past ++ [.step i]) d.resolved i s' := by
  have hplace := h.place i s hs
  cases s with
  | finished o => cases hstep
  | entered =>
    obtain ⟨rfl, rfl⟩ := Prod.mk.inj (Option.some.inj hstep)
    split
    · next hresolved => exact hresolved
    · next hopen => exact ⟨past, [], rfl, hs, Bool.eq_false_iff.mpr hopen⟩
  | unresolved =>
    obtain ⟨rfl, rfl⟩ := Prod.mk.inj (Option.some.inj hstep)
    split
    · next hcancelled =>
      have hresolved := h.flags.cancelled hcancelled
      exact ⟨hresolved, past, [], rfl, hplace, hs, hresolved, hcancelled⟩
    · trivial
  | queueing =>
    obtain ⟨-, rfl⟩ := Stage.step_queueing hstep
    trivial
  | holding =>
    obtain ⟨rfl, rfl⟩ := Prod.mk.inj (Option.some.inj hstep)
    split
    · next hresolved => exact hresolved
    · next hopen => exact Bool.eq_false_iff.mpr hopen
  | looking =>
    obtain ⟨rfl, rfl⟩ := Prod.mk.inj (Option.some.inj hstep)
    split
    · next hnone =>
      have hresolved := h.flags.arrivals (Option.isNone_iff_eq_none.mp hnone)
      exact absurd (hresolved.symm.trans hplace) nofun
    · exact hplace
  | selecting =>
    obtain ⟨n, hn, rfl, rfl⟩ := h.step_selecting hs hstep
    exact ⟨hplace, (h.flags.queued n hn).concat _⟩
  | accepting =>
    obtain ⟨rfl, rfl⟩ := Prod.mk.inj (Option.some.inj hstep)
    rfl
  | cancelling | closing | dropping =>
    obtain ⟨rfl, rfl⟩ := Prod.mk.inj (Option.some.inj hstep)
    exact hplace
  | leaving o =>
    obtain ⟨rfl, rfl⟩ := Prod.mk.inj (Option.some.inj hstep)
    cases o with
    | resolved => exact hplace
    | stopped => exact hplace.elim

/-- A move that leaves the waits where they are, and whether the detector is
resolved. -/
theorem stays (h : Sound g past) {m : Move}
    (hrun : g.run (past ++ [m]) = ⟨d, (g.run past).waits⟩)
    (hflags : Flags g.detector (past ++ [m]) d)
    (hresolved : d.resolved = (g.run past).detector.resolved)
    (hlocked : d.locked = (g.run past).detector.locked) : Sound g (past ++ [m]) := by
  refine ⟨?flags, ?locked, ?alone, ?place⟩
  all_goals rw [hrun]
  case flags => exact hflags
  case locked => exact hlocked ▸ h.locked
  case alone => exact h.alone
  case place =>
    intro j t hj
    exact (h.place j t hj).concat m hresolved.trans fun _ => hresolved

/-- Whoever else holds the lock, one that makes a step is not at it. -/
theorem away_of_holds (h : Sound g past) (hs : (g.run past).waits[i]? = some s)
    (hstep : s.step (g.run past).detector = some (d, s')) {j : Nat} {t : Stage} (hne : i ≠ j)
    (hj : (g.run past).waits[j]? = some t) (hholds : t.holdsLock = true) :
    s.holdsLock = false ∧ s'.holdsLock = false := by
  obtain ⟨htakes, -⟩ := Stage.step_locked hstep (h.locked i s hs)
  have hself : s.holdsLock = false :=
    Bool.eq_false_iff.mpr fun hself => hne (h.alone i j s t hs hj hself hholds)
  refine ⟨hself, Bool.eq_false_iff.mpr fun htaken => ?_⟩
  rcases htakes htaken with hheld | hfree
  · exact absurd (hheld.symm.trans hself) nofun
  · exact absurd ((h.locked j t hj hholds).symm.trans hfree) nofun

/-- A wait that makes its step. -/
theorem steps (h : Sound g past) (hs : (g.run past).waits[i]? = some s)
    (hstep : s.step (g.run past).detector = some (d, s'))
    (hrun : g.run (past ++ [.step i]) = ⟨d, (g.run past).waits.set i s'⟩) :
    Sound g (past ++ [.step i]) := by
  obtain ⟨-, hlocked⟩ := Stage.step_locked hstep (h.locked i s hs)
  have hresolved := Stage.step_resolved hstep
  have hother {j : Nat} {t : Stage} (hne : i ≠ j) (hj : (g.run past).waits[j]? = some t)
      (hholds : t.holdsLock = true) := h.away_of_holds hs hstep hne hj hholds
  refine ⟨?flags, ?locked, ?alone, ?place⟩
  all_goals rw [hrun]
  case flags => exact (h.flags_step hs hstep).concat _
  case locked =>
    intro j t hj hholds
    show d.locked = true
    rw [hlocked]
    rcases getElem?_set_cases hj with ⟨-, rfl⟩ | ⟨hne, hj⟩
    · rw [hholds, Bool.true_or]
    · obtain ⟨hself, hnext⟩ := hother hne hj hholds
      rw [hself, hnext, h.locked j t hj hholds]
      rfl
  case alone =>
    intro j k t u hj hk ht hu
    rcases getElem?_set_cases hj with ⟨rfl, rfl⟩ | ⟨hne, hj'⟩ <;>
      rcases getElem?_set_cases hk with ⟨rfl, rfl⟩ | ⟨hne', hk'⟩
    · rfl
    · exact absurd (ht.symm.trans (hother hne' hk' hu).2) nofun
    · exact absurd (hu.symm.trans (hother hne hj' ht).2) nofun
    · exact h.alone j k t u hj' hk' ht hu
  case place =>
    intro j t hj
    rcases getElem?_set_cases hj with ⟨rfl, rfl⟩ | ⟨hne, hj⟩
    · exact h.place_step hs hstep
    · refine (h.place j t hj).concat _ (fun hr => ?_) fun hholds => ?_
      · show d.resolved = true
        rw [hresolved, hr, Bool.true_or]
      · show d.resolved = _
        have haccepts : (s == .accepting) = false := by
          refine beq_eq_false_iff_ne.mpr ?_
          rintro rfl
          exact absurd (hother hne hj hholds).1 nofun
        rw [hresolved, haccepts, Bool.or_false]

/-- A wait that begins. -/
theorem starts (h : Sound g past) : Sound g (past ++ [.start]) := by
  have hrun : g.run (past ++ [.start]) =
      ⟨(g.run past).detector, (g.run past).waits ++ [.entered]⟩ := Grain.run_concat g past .start
  have hat {j : Nat} {t : Stage} (hj : ((g.run past).waits ++ [Stage.entered])[j]? = some t) :
      (g.run past).waits[j]? = some t ∨ t = .entered := by
    rw [List.getElem?_append] at hj
    split at hj
    · exact .inl hj
    · exact .inr (List.mem_singleton.mp (List.mem_of_getElem? hj))
  refine ⟨?flags, ?locked, ?alone, ?place⟩
  all_goals rw [hrun]
  case flags => exact h.flags.concat _
  case locked =>
    intro j t hj hholds
    rcases hat hj with hj | rfl
    · exact h.locked j t hj hholds
    · cases hholds
  case alone =>
    intro j k t u hj hk ht hu
    rcases hat hj with hj | rfl
    · rcases hat hk with hk | rfl
      · exact h.alone j k t u hj hk ht hu
      · cases hu
    · cases ht
  case place =>
    intro j t hj
    rcases hat hj with hj | rfl
    · exact (h.place j t hj).concat _ id fun _ => rfl
    · trivial

/-- **One move.** -/
theorem move (h : Sound g past) {m : Move} (hstop : m ≠ .stop) : Sound g (past ++ [m]) := by
  cases m with
  | stop => exact absurd rfl hstop
  | start => exact h.starts
  | notice c =>
    refine h.stays (Grain.run_concat g past (.notice c)) (h.flags.notice c) ?_ ?_
    all_goals
      unfold Detector.notice
      split <;> rfl
  | step i =>
    have hrun : g.run (past ++ [.step i]) = (g.run past).step i := Grain.run_concat g past (.step i)
    rcases (g.run past).step_cases i with ⟨s, d, s', hs, hstep, heq⟩ | heq
    · exact h.steps hs hstep (hrun.trans heq)
    · exact h.stays (hrun.trans heq) (h.flags.concat _) rfl rfl

theorem ofDetector {d : Detector} (h : Flags d [] d) : Sound (.ofDetector d) [] where
  flags := h
  locked _ _ := nofun
  alone _ _ _ _ := nofun
  place _ _ := nofun

/-- **A whole run.** -/
theorem run (h : Sound g past) (moves : List Move) (hstop : .stop ∉ moves) :
    Sound g (past ++ moves) := by
  induction moves generalizing past with
  | nil => rwa [List.append_nil]
  | cons m rest ih =>
    have hm : m ≠ .stop := by
      rintro rfl
      exact hstop List.mem_cons_self
    rw [List.append_cons]
    exact ih (h.move hm) fun hin => hstop (List.mem_cons_of_mem _ hin)

end Sound

/-! ## §5 Stops -/

theorem flags_start {dir : String} {id : TaskRunId} {isThere : Bool}
    {watch : Except WatchFault Unit} {d : Detector}
    (h : Detector.start dir id isThere watch = .ok d) :
    Flags d [] d ∧ d.fileName = markerFileName id ∧ d.resolved = isThere := by
  unfold Detector.start at h
  split at h
  · next hthere =>
    obtain rfl := Except.ok.inj h
    exact ⟨⟨rfl, nofun, fun _ => rfl, fun _ => rfl, nofun, .inl⟩, rfl, hthere.symm⟩
  · next hthere =>
    cases watch with
    | error fault => cases h
    | ok _ =>
      obtain rfl := Except.ok.inj h
      exact ⟨⟨rfl, nofun, nofun, nofun, nofun, nofun⟩, rfl, (Bool.eq_false_iff.mpr hthere).symm⟩

/-- The detector is resolved, and wait `i` has not read so yet or was told. -/
def Late (g : Grain) (i : Nat) : Prop :=
  g.detector.resolved = true ∧
    (g.waits[i]? = some .entered ∨ g.waits[i]? = some (.finished .resolved))

theorem Late.move {g : Grain} {i : Nat} (h : Late g i) (m : Move) : Late (g.move m) i := by
  obtain ⟨hresolved, hat⟩ := h
  cases m with
  | stop => exact ⟨hresolved, hat⟩
  | notice c =>
    refine ⟨?_, hat⟩
    show (g.detector.notice c).resolved = true
    unfold Detector.notice
    split <;> exact hresolved
  | start =>
    refine ⟨hresolved, ?_⟩
    show (g.waits ++ [.entered])[i]? = _ ∨ (g.waits ++ [.entered])[i]? = _
    rw [List.getElem?_append_left]
    · exact hat
    · exact hat.elim (fun h => (List.getElem?_eq_some_iff.mp h).1)
        fun h => (List.getElem?_eq_some_iff.mp h).1
  | step j =>
    show Late (g.step j) i
    rcases g.step_cases j with ⟨s, d, s', hs, hstep, heq⟩ | heq
    · rw [heq]
      refine ⟨?_, ?_⟩
      · show d.resolved = true
        rw [Stage.step_resolved hstep, hresolved, Bool.true_or]
      · show (g.waits.set j s')[i]? = _ ∨ (g.waits.set j s')[i]? = _
        by_cases hji : j = i
        · subst hji
          obtain ⟨hlt, -⟩ := List.getElem?_eq_some_iff.mp hs
          rw [List.getElem?_set_self hlt]
          rcases hat with hentered | hfinished
          · obtain rfl := Option.some.inj (hs.symm.trans hentered)
            obtain ⟨-, rfl⟩ := Prod.mk.inj (Option.some.inj hstep)
            rw [if_pos hresolved]
            exact .inr rfl
          · obtain rfl := Option.some.inj (hs.symm.trans hfinished)
            cases hstep
        · rw [List.getElem?_set_ne hji]
          exact hat
    · rw [heq]
      exact ⟨hresolved, hat⟩

/-- Whoever comes to a detector that is resolved is not told of a stop, and
stopping it does not change that. -/
theorem Late.run {g : Grain} {i : Nat} (h : Late g i) (moves : List Move) :
    Late (g.run moves) i := by
  induction moves generalizing g with
  | nil => exact h
  | cons m rest ih => exact ih (h.move m)

/-- What the waits are told while nobody has stopped the detector. -/
structure Fair (name : String) (first : Detector) (moves : List Move) : Prop where
  told_resolved : ∀ i, ((Grain.ofDetector first).run moves).outcome? i = some .resolved →
    ((Grain.ofDetector first).run moves).detector.resolved = true
  /-- Success, taken for a stop. -/
  told_stopped : ∀ i, ((Grain.ofDetector first).run moves).outcome? i = some .stopped →
    ((Grain.ofDetector first).run moves).detector.resolved = true ∧
      Overtaken (.ofDetector first) moves i
  resolved : ((Grain.ofDetector first).run moves).detector.resolved = true →
    first.resolved = true ∨ Arrived name moves
  /-- Whoever begins behind success is not told of a stop. -/
  late : ((Grain.ofDetector first).run moves).detector.resolved = true →
    ∀ i, ((Grain.ofDetector first).run moves).waits[i]? = some .entered → ∀ more,
      (((Grain.ofDetector first).run moves).run more).outcome? i ≠ some .stopped

/-- **Without a stop, to be told of one is to be overtaken.** However the
single accesses of any number of waits and the changes in the directory fall:
whoever is told that the detector was stopped has read that it was not
resolved, and only then another one resolved it and cancelled. The marker has
arrived by then. -/
theorem stopped_is_overtaken {dir : String} {id : TaskRunId} {isThere : Bool}
    {watch : Except WatchFault Unit} {d : Detector}
    (hstart : Detector.start dir id isThere watch = .ok d) (moves : List Move)
    (hstop : .stop ∉ moves) : Fair (markerFileName id) d moves := by
  obtain ⟨hflags, hname, -⟩ := flags_start hstart
  have hsound : Sound (.ofDetector d) moves := (Sound.ofDetector hflags).run moves hstop
  exact {
    told_resolved := fun i hi => hsound.place i _ (Grain.outcome?_eq_some.mp hi)
    told_stopped := fun i hi => hsound.place i _ (Grain.outcome?_eq_some.mp hi)
    resolved := fun hresolved => hname ▸ hsound.flags.resolved hresolved
    late := by
      intro hresolved i hi more htold
      have hlate : Late _ i := Late.run ⟨hresolved, .inl hi⟩ more
      rcases hlate.2 with hentered | hfinished
      · exact nomatch (Grain.outcome?_eq_some.mp htold).symm.trans hentered
      · exact nomatch (Grain.outcome?_eq_some.mp htold).symm.trans hfinished }

/-- Two waits: the second one reads that the detector is not resolved, the
first one goes through the lock to the arrival, resolves and cancels, and the
second one reads again. -/
def overtaking : List Move :=
  [.start, .start, .step 1, .step 0, .step 0, .step 0, .step 0, .step 0, .notice created,
    .step 0, .step 0, .step 0, .step 1]

/-- The second one is told of a stop, in a run without any. -/
theorem success_taken_for_stop :
    ∃ d, Detector.start "runs" ⟨"abc"⟩ false (.ok ()) = .ok d ∧ .stop ∉ overtaking ∧
      ((Grain.ofDetector d).run overtaking).outcome? 1 = some .stopped :=
  ⟨_, rfl, by decide, by decide⟩

/-- It has been overtaken, and one that begins then is not told so. -/
theorem overtaking_fair :
    ∃ d, Detector.start "runs" ⟨"abc"⟩ false (.ok ()) = .ok d ∧ .stop ∉ overtaking ++ [.start] ∧
      Fair (markerFileName ⟨"abc"⟩) d (overtaking ++ [.start]) ∧
      Overtaken (.ofDetector d) (overtaking ++ [.start]) 1 ∧
      ∀ more, (((Grain.ofDetector d).run (overtaking ++ [.start])).run more).outcome? 2
        ≠ some .stopped := by
  have hstart : Detector.start "runs" ⟨"abc"⟩ false (.ok ()) = .ok _ := rfl
  have hstop : .stop ∉ overtaking ++ [.start] := by decide
  have hfair := stopped_is_overtaken hstart _ hstop
  refine ⟨_, hstart, hstop, hfair, ?_, ?_⟩
  · exact (hfair.told_stopped 1 (by decide)).2
  · exact hfair.late (by decide) 2 (by decide)

end Grain

end Runwatch.Marker
