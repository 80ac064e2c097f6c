/-
Runwatch.Proofs.Marker.Vigil — any number of waits for one marker.

A vigil is a detector with all the waits on it. A poll of a wait, a change
in the directory, a stop and the end of a wait half-way are one step each,
in any order. The lock of the queue of arrivals is given to those who wait
for it in the order of their coming (`Vigil.queue`), and one that is given
up passes it on.

  §1 Polls    — a poll goes on until the wait is over or parks
                (`poll_parks`); what it does to a detector that watches, was
                stopped or is resolved (`Standing`).
  §2 Vigils   — the steps (`Vigil.act`) and runs of them.
  §3 Soundness — what each step keeps (`Sound.act`), and so each run.
  §4 Arrivals — an arrival is still there for whoever comes to the lock.

The main statement is `waits_agree`.
-/
import Runwatch.Marker.Detector

namespace Runwatch.Marker

open Telemetry (Change DetectError WatchFault)

/-! ## §1 Polls -/

/-- How far a wait has come. -/
def Stage.rank : Stage → Nat
  | .entered => 0
  | .unresolved => 1
  | .queueing => 2
  | .holding => 3
  | .looking => 4
  | .selecting => 5
  | .accepting => 6
  | .cancelling => 7
  | .closing => 8
  | .dropping => 9
  | .leaving _ => 10
  | .finished _ => 11

theorem Stage.rank_lt {d d' : Detector} {s s' : Stage} (h : s.step d = some (d', s')) :
    s.rank < s'.rank := by
  cases s <;> grind [Stage.step, Stage.rank]

theorem Stage.rank_le (s : Stage) : s.rank ≤ 11 := by cases s <;> simp [rank]

theorem run_parks {fuel : Nat} {d : Detector} {s : Stage} (h : 12 ≤ fuel + s.rank) :
    (run fuel d s).2.step (run fuel d s).1 = none := by
  induction fuel generalizing d s with
  | zero => exact absurd s.rank_le (by omega)
  | succ fuel ih =>
    unfold run
    cases hstep : s.step d with
    | none => exact hstep
    | some next =>
      have hrank := Stage.rank_lt hstep
      exact ih (by omega)

/-- A poll goes on as far as the wait can go on. -/
theorem poll_parks (d : Detector) (s : Stage) : (poll d s).2.step (poll d s).1 = none :=
  run_parks (by simp [maxSteps])

/-- Lets a wait run while the lock, held or not, is for another one. -/
def pollBehind (d : Detector) (s : Stage) : Detector × Stage :=
  let (d', s) := poll { d with locked := true } s
  ({ d' with locked := d.locked }, s)

/-- How a detector stands that began by watching. -/
inductive Standing where
  /-- It watches; so many arrivals are queued. -/
  | watching (arrivals : Nat)
  /-- It was stopped with so many arrivals queued. -/
  | stopped (arrivals : Nat)
  | resolved
  deriving DecidableEq, Repr

namespace Standing

variable {path name : String}

def detector (path name : String) (locked : Bool) : Standing → Detector
  | watching n => ⟨path, name, false, false, true, some n, locked⟩
  | stopped n => ⟨path, name, false, true, false, some n, locked⟩
  | resolved => ⟨path, name, true, true, false, none, locked⟩

/-- What a wait is told that ends now. -/
def outcome? : Standing → Option Outcome
  | watching _ => none
  | stopped _ => some .stopped
  | resolved => some .resolved

def notice (hit : Bool) : Standing → Standing
  | watching n => watching (if hit then n + 1 else n)
  | st => st

def stop : Standing → Standing
  | watching n => stopped n
  | st => st

/-- What comes of it if a wait gets the lock: the detector and the wait. -/
def turn : Standing → Standing × Stage
  | watching 0 => (watching 0, .selecting)
  | watching (_ + 1) => (resolved, .finished .resolved)
  | stopped n => (stopped n, .finished .stopped)
  | resolved => (resolved, .finished .resolved)

variable (path name) (locked : Bool) (st : Standing)

theorem notice_detector (c : Change) :
    (st.detector path name locked).notice c =
      (st.notice (c.brings name)).detector path name locked := by
  cases st with
  | watching n => cases hit : c.brings name <;> simp [detector, notice, Detector.notice, hit]
  | stopped n => rfl
  | resolved => rfl

theorem stop_detector :
    (st.detector path name locked).stop = st.stop.detector path name locked := by
  cases st <;> rfl

/-- A wait that is over stays so. -/
theorem poll_finished (d : Detector) (o : Outcome) : poll d (.finished o) = (d, .finished o) := rfl

/-- A wait that comes to a detector that does not watch is told at once. -/
theorem poll_entered_of_outcome {o : Outcome} (h : st.outcome? = some o) :
    poll (st.detector path name locked) .entered = (st.detector path name locked, .finished o) := by
  cases st <;> cases h <;> rfl

/-- With the lock in other hands it queues. -/
theorem poll_entered_locked (h : st.outcome? = none) :
    poll (st.detector path name true) .entered = (st.detector path name true, .queueing) := by
  cases st with
  | watching n => rfl
  | stopped n => cases h
  | resolved => cases h

theorem poll_queueing_locked :
    poll (st.detector path name true) .queueing = (st.detector path name true, .queueing) := by
  cases st <;> rfl

theorem poll_entered (h : st.outcome? = none) :
    poll (st.detector path name false) .entered =
      (st.turn.1.detector path name st.turn.2.holdsLock, st.turn.2) := by
  rcases st with (_ | n) | n | _
  · rfl
  · rfl
  · cases h
  · cases h

theorem poll_queueing :
    poll (st.detector path name false) .queueing =
      (st.turn.1.detector path name st.turn.2.holdsLock, st.turn.2) := by
  rcases st with (_ | n) | n | _ <;> rfl

/-- Only a wait that selects can resolve the detector, so that it does not
find it resolved. -/
theorem poll_selecting (h : st ≠ resolved) :
    poll (st.detector path name true) .selecting =
      (st.turn.1.detector path name st.turn.2.holdsLock, st.turn.2) := by
  rcases st with (_ | n) | n | _
  · rfl
  · rfl
  · rfl
  · exact absurd rfl h

/-- One that is not served does not see whether the lock is held. -/
theorem pollBehind_detector {s s' : Stage}
    (h : poll (st.detector path name true) s = (st.detector path name true, s')) :
    pollBehind (st.detector path name locked) s = (st.detector path name locked, s') := by
  have hlocked : { st.detector path name locked with locked := true } =
      st.detector path name true := by cases st <;> rfl
  unfold pollBehind
  rw [hlocked, h]
  cases st <;> rfl

theorem giveUp_detector (s : Stage) :
    giveUp (st.detector path name locked) s =
      st.detector path name (locked && !s.holdsLock) := by
  cases hs : s.holdsLock <;> cases st <;> simp [giveUp, detector, hs]

end Standing

/-! ## §2 Vigils -/

/-- A detector and the waits on it. -/
structure Vigil where
  detector : Detector
  /-- The waits in the order of their beginnings; none for one that was
  given up. -/
  waits : List (Option Stage)
  /-- The waits that are parked at the lock, in the order of their coming. -/
  queue : List Nat

inductive Action where
  | start
  | poll (i : Nat)
  | giveUp (i : Nat)
  | notice (c : Change)
  | stop
  deriving DecidableEq, Repr

namespace Vigil

/-- Whether others stand before a wait at the lock. -/
def isBehind (v : Vigil) (i : Nat) (s : Stage) : Bool :=
  !s.holdsLock && v.queue.head?.any (· != i)

/-- The queue when a wait has come to a stage. -/
def requeue (v : Vigil) (i : Nat) (s : Stage) : List Nat :=
  if s = .queueing then if i ∈ v.queue then v.queue else v.queue ++ [i] else v.queue.erase i

def poll (v : Vigil) (i : Nat) : Vigil :=
  match v.waits[i]? with
  | some (some s) =>
    let (d, s) := if v.isBehind i s then pollBehind v.detector s else Marker.poll v.detector s
    ⟨d, v.waits.set i (some s), v.requeue i s⟩
  | _ => v

def giveUp (v : Vigil) (i : Nat) : Vigil :=
  match v.waits[i]? with
  | some (some s) => ⟨Marker.giveUp v.detector s, v.waits.set i none, v.queue.erase i⟩
  | _ => v

/-- One step. -/
def act (v : Vigil) : Action → Vigil
  | .start => { v with waits := v.waits ++ [some .entered] }
  | .poll i => v.poll i
  | .giveUp i => v.giveUp i
  | .notice c => { v with detector := v.detector.notice c }
  | .stop => { v with detector := v.detector.stop }

def run (v : Vigil) (acts : List Action) : Vigil := acts.foldl act v

/-- The vigil over a detector, with no waits yet. -/
def ofDetector (d : Detector) : Vigil := ⟨d, [], []⟩

/-- Where a wait stands that was not given up. -/
def stage? (v : Vigil) (i : Nat) : Option Stage := v.waits[i]?.join

/-- How a wait ended. -/
def outcome? (v : Vigil) (i : Nat) : Option Outcome := (v.stage? i).bind Stage.outcome?

/-- The waits at the lock: the one that holds it, then those that queue. -/
def line (v : Vigil) : List Nat := (v.waits.idxOf? (some .selecting)).toList ++ v.queue

@[simp] theorem run_nil (v : Vigil) : v.run [] = v := rfl

@[simp] theorem run_cons (v : Vigil) (a : Action) (acts : List Action) :
    v.run (a :: acts) = (v.act a).run acts := rfl

theorem run_append (v : Vigil) (first later : List Action) :
    v.run (first ++ later) = (v.run first).run later := List.foldl_append

theorem stage?_eq_some {v : Vigil} {i : Nat} {s : Stage} :
    v.stage? i = some s ↔ v.waits[i]? = some (some s) := Option.join_eq_some_iff

/-- Only the wait that is moved stands elsewhere. -/
theorem stage?_set {v : Vigil} {i : Nat} {s : Stage} (h : v.stage? i = some s) (s' : Option Stage)
    (d : Detector) (queue : List Nat) (j : Nat) :
    (Vigil.mk d (v.waits.set i s') queue).stage? j = if j = i then s' else v.stage? j := by
  obtain ⟨hlt, -⟩ := List.getElem?_eq_some_iff.mp (stage?_eq_some.mp h)
  unfold stage?
  rw [List.getElem?_set]
  split
  · next heq => simp [heq]
  · next hne => rw [if_neg (Ne.symm hne)]

theorem stage?_start (v : Vigil) (i : Nat) :
    (v.act .start).stage? i = if i = v.waits.length then some .entered else v.stage? i := by
  unfold stage? act
  rw [List.getElem?_append]
  split
  · next hlt => rw [if_neg (by omega)]
  · next hge =>
    split
    · next heq => simp [heq]
    · next hne =>
      obtain ⟨k, hk⟩ : ∃ k, i - v.waits.length = k + 1 := ⟨i - v.waits.length - 1, by omega⟩
      rw [hk, List.getElem?_eq_none (by omega : v.waits.length ≤ i)]
      rfl

theorem ne_length_of_stage? {v : Vigil} {i : Nat} {s : Stage} (h : v.stage? i = some s) :
    i ≠ v.waits.length := by
  obtain ⟨hlt, -⟩ := List.getElem?_eq_some_iff.mp (stage?_eq_some.mp h)
  omega

theorem poll_eq {v : Vigil} {i : Nat} {s s' : Stage} {d : Detector} (h : v.stage? i = some s)
    (hresult : (if v.isBehind i s then pollBehind v.detector s else Marker.poll v.detector s) =
      (d, s')) : v.poll i = ⟨d, v.waits.set i (some s'), v.requeue i s'⟩ := by
  rw [poll, stage?_eq_some.mp h]
  simp only [hresult]

theorem giveUp_eq {v : Vigil} {i : Nat} {s : Stage} (h : v.stage? i = some s) :
    v.giveUp i = ⟨Marker.giveUp v.detector s, v.waits.set i none, v.queue.erase i⟩ := by
  rw [giveUp, stage?_eq_some.mp h]

/-- What is not there cannot be polled or given up. -/
theorem poll_eq_self {v : Vigil} {i : Nat} (h : v.stage? i = none) : v.poll i = v := by
  unfold poll
  split
  · next s hwait => rw [stage?, hwait] at h; cases h
  · rfl

theorem giveUp_eq_self {v : Vigil} {i : Nat} (h : v.stage? i = none) : v.giveUp i = v := by
  unfold giveUp
  split
  · next s hwait => rw [stage?, hwait] at h; cases h
  · rfl

/-- A poll that leaves its wait where it is and the detector as it is. -/
theorem eq_self_of_stays {v : Vigil} {i : Nat} {s : Stage} (h : v.stage? i = some s) :
    (⟨v.detector, v.waits.set i (some s), v.queue⟩ : Vigil) = v := by
  obtain ⟨hlt, heq⟩ := List.getElem?_eq_some_iff.mp (stage?_eq_some.mp h)
  rw [← heq, List.set_getElem_self]

end Vigil

/-! ## §3 Soundness -/

/-- A change that brings the file was reported before any stop. -/
def Delivered (name : String) (acts : List Action) : Prop :=
  ∃ before c later, acts = before ++ .notice c :: later ∧ .stop ∉ before ∧ c.brings name = true

theorem delivered_concat {name : String} {past : List Action} {a : Action} :
    Delivered name (past ++ [a]) ↔ Delivered name past ∨
      ∃ c, a = .notice c ∧ .stop ∉ past ∧ c.brings name = true := by
  constructor
  · rintro ⟨before, c, later, heq, hstop, hbrings⟩
    rcases List.eq_nil_or_concat later with rfl | ⟨later, b, rfl⟩
    · obtain ⟨rfl, hlast⟩ := List.append_inj' heq rfl
      exact .inr ⟨c, (List.cons.inj hlast).1, hstop, hbrings⟩
    · rw [List.concat_eq_append, ← List.cons_append, ← List.append_assoc] at heq
      obtain ⟨rfl, -⟩ := List.append_inj' heq rfl
      exact .inl ⟨before, c, later, rfl, hstop, hbrings⟩
  · rintro (⟨before, c, later, rfl, hstop, hbrings⟩ | ⟨c, rfl, hstop, hbrings⟩)
    · exact ⟨before, c, later ++ [a], by simp, hstop, hbrings⟩
    · exact ⟨past, c, [], rfl, hstop, hbrings⟩

namespace Standing

/-- What has happened to a detector that stands so. -/
def Fits (name : String) (past : List Action) : Standing → Prop
  | watching n => .stop ∉ past ∧ (0 < n ↔ Delivered name past)
  | stopped _ => .stop ∈ past
  | resolved => Delivered name past

/-- Once stopped or resolved, a detector stays so. -/
def Leads (st st' : Standing) : Prop := ∀ o, st.outcome? = some o → st' = st

theorem Leads.refl (st : Standing) : st.Leads st := fun _ _ => rfl

theorem Leads.trans {st st' st'' : Standing} (h : st.Leads st') (h' : st'.Leads st'') :
    st.Leads st'' := by
  intro o ho
  obtain rfl := h o ho
  exact h' o ho

variable {name : String} {past : List Action} {st : Standing}

theorem leads_notice (st : Standing) (hit : Bool) : st.Leads (st.notice hit) := by
  cases st <;> simp [Leads, notice, outcome?]

theorem leads_stop (st : Standing) : st.Leads st.stop := by
  cases st <;> simp [Leads, stop, outcome?]

theorem leads_turn (st : Standing) : st.Leads st.turn.1 := by
  rcases st with (_ | n) | n | _ <;> simp [Leads, turn, outcome?]

theorem Fits.quiet (h : st.Fits name past) {a : Action} (hstop : a ≠ .stop)
    (hnotice : ∀ c, a ≠ .notice c) : st.Fits name (past ++ [a]) := by
  have hdelivered : Delivered name (past ++ [a]) ↔ Delivered name past := by
    simp [delivered_concat, hnotice]
  cases st with
  | watching n => exact ⟨by simp [h.1, Ne.symm hstop], h.2.trans hdelivered.symm⟩
  | stopped n => exact List.mem_append_left _ h
  | resolved => exact hdelivered.mpr h

theorem Fits.notice (h : st.Fits name past) (c : Change) :
    (st.notice (c.brings name)).Fits name (past ++ [.notice c]) := by
  cases hit : c.brings name <;> cases st <;> simp_all [Fits, Standing.notice, delivered_concat]

theorem Fits.stop (h : st.Fits name past) : st.stop.Fits name (past ++ [.stop]) := by
  cases st <;> simp_all [Fits, Standing.stop, delivered_concat]

theorem Fits.turn (h : st.Fits name past) : st.turn.1.Fits name past := by
  rcases st with (_ | n) | n | _
  · exact h
  · exact h.2.mp (Nat.succ_pos n)
  · exact h
  · exact h

end Standing

/-- Where wait `i` may stand between steps. -/
inductive Place (st : Standing) (holder : Option Nat) (queue : List Nat) (i : Nat) : Stage → Prop
  | entered : Place st holder queue i .entered
  | queueing (h : i ∈ queue) : Place st holder queue i .queueing
  | selecting (h : holder = some i) : Place st holder queue i .selecting
  | finished {o : Outcome} (h : st.outcome? = some o) : Place st holder queue i (.finished o)

theorem Place.imp {st st' : Standing} {holder holder' : Option Nat} {queue queue' : List Nat}
    {i : Nat} {s : Stage} (h : Place st holder queue i s) (hleads : st.Leads st')
    (hqueue : i ∈ queue → i ∈ queue') (hholder : holder = some i → holder' = some i) :
    Place st' holder' queue' i s := by
  cases h with
  | entered => exact .entered
  | queueing h => exact .queueing (hqueue h)
  | selecting h => exact .selecting (hholder h)
  | finished h => exact .finished ((hleads _ h).symm ▸ h)

/-- A vigil after some steps: how its detector stands, and which wait holds
the lock. -/
structure Sound (path name : String) (past : List Action) (v : Vigil) (st : Standing)
    (holder : Option Nat) : Prop where
  detector : v.detector = st.detector path name holder.isSome
  place : ∀ i s, v.stage? i = some s → Place st holder v.queue i s
  queued : ∀ i ∈ v.queue, v.stage? i = some .queueing
  nodup : v.queue.Nodup
  holding : ∀ i, holder = some i → v.stage? i = some .selecting ∧ st ≠ .resolved
  fits : st.Fits name past

/-- What a poll can do: nothing, let the wait join the queue, tell it how it
ends, or take its turn at the lock. -/
inductive Polled (path name : String) (v : Vigil) (st : Standing) (holder : Option Nat) (i : Nat) :
    Stage → Vigil → Prop
  | finished {o : Outcome} (h : st.outcome? = some o) :
      Polled path name v st holder i (.finished o) v
  | queues (hline : holder.isSome ∨ v.queue.head? ≠ some i) :
      Polled path name v st holder i .queueing v
  | joins (h : st.outcome? = none) (hline : holder.isSome ∨ v.queue ≠ []) :
      Polled path name v st holder i .entered
        ⟨v.detector, v.waits.set i (some .queueing), v.queue ++ [i]⟩
  | told {o : Outcome} (h : st.outcome? = some o) :
      Polled path name v st holder i .entered
        ⟨v.detector, v.waits.set i (some (.finished o)), v.queue⟩
  | turns {s : Stage} (h : holder = none ∨ holder = some i) :
      Polled path name v st holder i s
        ⟨st.turn.1.detector path name st.turn.2.holdsLock, v.waits.set i (some st.turn.2),
          v.queue.erase i⟩

namespace Sound

variable {path name : String} {past : List Action} {v : Vigil} {st : Standing}
  {holder : Option Nat} {i : Nat} {s : Stage}

theorem not_mem_queue (h : Sound path name past v st holder) (hs : v.stage? i = some s)
    (hne : s ≠ .queueing) : i ∉ v.queue := by
  intro hin
  rw [h.queued i hin] at hs
  exact hne (Option.some.inj hs).symm

theorem holder_ne (h : Sound path name past v st holder) (hs : v.stage? i = some s)
    (hne : s ≠ .selecting) : holder ≠ some i := by
  rintro hi
  rw [(h.holding i hi).1] at hs
  exact hne (Option.some.inj hs).symm

theorem turn_ne_queueing (st : Standing) : st.turn.2 ≠ .queueing := by
  rcases st with (_ | n) | n | _ <;> simp [Standing.turn]

theorem requeue_queueing (h : Sound path name past v st holder) (hs : v.stage? i = some .entered) :
    v.requeue i .queueing = v.queue ++ [i] := by
  rw [Vigil.requeue, if_pos rfl, if_neg (h.not_mem_queue hs nofun)]

theorem requeue_of_ne {s' : Stage} (hs' : s' ≠ .queueing) : v.requeue i s' = v.queue.erase i :=
  if_neg hs'

theorem requeue_finished (h : Sound path name past v st holder) (hs : v.stage? i = some s)
    (hne : s ≠ .queueing) (o : Outcome) : v.requeue i (.finished o) = v.queue := by
  rw [requeue_of_ne (by simp), List.erase_of_not_mem (h.not_mem_queue hs hne)]

/-- A wait whose turn it is takes the lock. -/
theorem poll_turn (h : Sound path name past v st holder) (hs : v.stage? i = some s)
    (hlock : holder = none ∨ holder = some i) (hfirst : v.isBehind i s = false)
    (hturn : Marker.poll (st.detector path name holder.isSome) s =
      (st.turn.1.detector path name st.turn.2.holdsLock, st.turn.2)) :
    Polled path name v st holder i s (v.poll i) := by
  rw [Vigil.poll_eq hs (by rw [hfirst, if_neg nofun, h.detector, hturn]),
    requeue_of_ne (turn_ne_queueing st)]
  exact .turns hlock

/-- Behind others, or with the lock in other hands, a wait leaves the
detector as it is. -/
theorem poll_behind (h : Sound path name past v st holder) (hs : v.stage? i = some s) {s' : Stage}
    (hbehind : v.isBehind i s = true ∨ holder.isSome = true)
    (hlocked : Marker.poll (st.detector path name true) s = (st.detector path name true, s')) :
    v.poll i = ⟨v.detector, v.waits.set i (some s'), v.requeue i s'⟩ := by
  refine Vigil.poll_eq hs ?_
  rw [h.detector, st.pollBehind_detector path name _ hlocked]
  rcases hbehind with hbehind | hheld
  · rw [if_pos hbehind]
  · rw [hheld, hlocked, ite_self]

/-- A wait that needs no lock to be over does not mind others at it. -/
theorem poll_free (h : Sound path name past v st holder) (hs : v.stage? i = some s)
    (hne : s ≠ .queueing) {o : Outcome}
    (hfinished : ∀ l,
      Marker.poll (st.detector path name l) s = (st.detector path name l, .finished o)) :
    v.poll i = ⟨v.detector, v.waits.set i (some (.finished o)), v.queue⟩ := by
  rw [← h.requeue_finished hs hne o]
  refine Vigil.poll_eq hs ?_
  rw [h.detector, st.pollBehind_detector path name _ (hfinished true), hfinished, ite_self]

theorem poll (h : Sound path name past v st holder) (hs : v.stage? i = some s) :
    Polled path name v st holder i s (v.poll i) := by
  have hstay := Vigil.eq_self_of_stays hs
  have hbehind : (v.isBehind i s = true ∨ holder.isSome = true) ∨
      v.isBehind i s = false ∧ holder = none := by
    cases v.isBehind i s <;> cases holder <;> simp
  cases h.place i s hs with
  | @finished o hfinished =>
    rw [h.poll_free hs nofun fun l => Standing.poll_finished _ o, hstay]
    exact .finished hfinished
  | entered =>
    cases ho : st.outcome? with
    | some o =>
      rw [h.poll_free hs nofun fun l => st.poll_entered_of_outcome path name l ho]
      exact .told ho
    | none =>
      rcases hbehind with hbehind | ⟨hfirst, rfl⟩
      · rw [h.poll_behind hs hbehind (st.poll_entered_locked path name ho), h.requeue_queueing hs]
        refine .joins ho (hbehind.symm.imp_right fun hbehind hnil => ?_)
        simp [Vigil.isBehind, hnil] at hbehind
      · exact h.poll_turn hs (.inl rfl) hfirst (st.poll_entered path name ho)
  | queueing hin =>
    rcases hbehind with hbehind | ⟨hfirst, rfl⟩
    · have hqueue : v.requeue i .queueing = v.queue := by simp [Vigil.requeue, hin]
      rw [h.poll_behind hs hbehind (st.poll_queueing_locked path name), hqueue, hstay]
      refine .queues (hbehind.symm.imp_right fun hbehind hhead => ?_)
      simp [Vigil.isBehind, hhead] at hbehind
    · exact h.poll_turn hs (.inl rfl) hfirst (st.poll_queueing path name)
  | selecting hholds =>
    subst hholds
    exact h.poll_turn hs (.inr rfl) rfl (st.poll_selecting path name (h.holding i rfl).2)

theorem quiet (h : Sound path name past v st holder) {a : Action} (hstop : a ≠ .stop)
    (hnotice : ∀ c, a ≠ .notice c) : Sound path name (past ++ [a]) v st holder :=
  { h with fits := h.fits.quiet hstop hnotice }

theorem joins (h : Sound path name past v st holder) (hs : v.stage? i = some .entered) :
    Sound path name past ⟨v.detector, v.waits.set i (some .queueing), v.queue ++ [i]⟩ st
      holder where
  detector := h.detector
  place j s hj := by
    rw [Vigil.stage?_set hs] at hj
    split at hj
    · next heq =>
      obtain rfl := Option.some.inj hj
      exact .queueing (by simp [heq])
    · exact (h.place j s hj).imp (.refl st) (List.mem_append_left _) id
  queued j hj := by
    rw [Vigil.stage?_set hs]
    split
    · rfl
    · next hne => exact h.queued j (by simpa [hne] using hj)
  nodup := List.nodup_append.mpr ⟨h.nodup, by simp, fun j hj k hk heq =>
    h.not_mem_queue hs nofun (List.mem_singleton.mp hk ▸ heq ▸ hj)⟩
  holding j hj := by
    have hne : j ≠ i := fun heq => h.holder_ne hs nofun (heq ▸ hj)
    rw [Vigil.stage?_set hs, if_neg hne]
    exact h.holding j hj
  fits := h.fits

theorem told (h : Sound path name past v st holder) (hs : v.stage? i = some .entered) {o : Outcome}
    (ho : st.outcome? = some o) :
    Sound path name past ⟨v.detector, v.waits.set i (some (.finished o)), v.queue⟩ st holder where
  detector := h.detector
  place j s hj := by
    rw [Vigil.stage?_set hs] at hj
    split at hj
    · obtain rfl := Option.some.inj hj
      exact .finished ho
    · exact h.place j s hj
  queued j hj := by
    have hne : j ≠ i := fun heq => h.not_mem_queue hs nofun (heq ▸ hj)
    rw [Vigil.stage?_set hs, if_neg hne]
    exact h.queued j hj
  nodup := h.nodup
  holding j hj := by
    have hne : j ≠ i := fun heq => h.holder_ne hs nofun (heq ▸ hj)
    rw [Vigil.stage?_set hs, if_neg hne]
    exact h.holding j hj
  fits := h.fits

/-- The wait that holds the lock after a turn. -/
def keeps (st : Standing) (i : Nat) : Option Nat := if st.turn.2.holdsLock then some i else none

theorem turns (h : Sound path name past v st holder) (hs : v.stage? i = some s)
    (hlock : holder = none ∨ holder = some i) :
    Sound path name past
      ⟨st.turn.1.detector path name st.turn.2.holdsLock, v.waits.set i (some st.turn.2),
        v.queue.erase i⟩ st.turn.1 (keeps st i) where
  detector := by cases hholds : st.turn.2.holdsLock <;> simp [keeps, hholds]
  place j s hj := by
    rw [Vigil.stage?_set hs] at hj
    split at hj
    · next heq =>
      obtain rfl := Option.some.inj hj
      rw [heq]
      rcases st with (_ | n) | n | _
      · exact .selecting rfl
      · exact .finished rfl
      · exact .finished rfl
      · exact .finished rfl
    · next hne =>
      refine (h.place j s hj).imp st.leads_turn ?_ ?_
      · exact (List.mem_erase_of_ne hne).mpr
      · rintro rfl
        simp_all [eq_comm]
  queued j hj := by
    have hne : j ≠ i := fun heq => h.nodup.not_mem_erase (heq ▸ hj)
    rw [Vigil.stage?_set hs, if_neg hne]
    exact h.queued j (List.mem_of_mem_erase hj)
  nodup := h.nodup.erase i
  holding j hj := by
    rcases st with (_ | n) | n | _
    · obtain rfl := Option.some.inj hj
      exact ⟨by rw [Vigil.stage?_set hs, if_pos rfl]; rfl, nofun⟩
    · cases hj
    · cases hj
    · cases hj
  fits := h.fits.turn

/-- A wait that is given up gives the lock back, or its place in the queue. -/
theorem givesUp (h : Sound path name past v st holder) (hs : v.stage? i = some s) :
    Sound path name past (v.giveUp i) st (if holder = some i then none else holder) := by
  have hholds : s.holdsLock = decide (holder = some i) := by
    cases h.place i s hs with
    | selecting hi => simp [hi, Stage.holdsLock]
    | entered | queueing | finished => simp [h.holder_ne hs, Stage.holdsLock]
  have hlocked : (holder.isSome && !s.holdsLock) =
      (if holder = some i then none else holder).isSome := by
    rw [hholds]
    split
    · next hi => simp [hi]
    · next hne => simp [hne]
  rw [Vigil.giveUp_eq hs, h.detector, Standing.giveUp_detector, hlocked]
  refine ⟨rfl, ?place, ?queued, h.nodup.erase i, ?holding, h.fits⟩
  case place =>
    intro j s' hj
    rw [Vigil.stage?_set hs] at hj
    split at hj
    · cases hj
    · next hne =>
      refine (h.place j s' hj).imp (.refl st) (List.mem_erase_of_ne hne).mpr ?_
      rintro rfl
      simp [hne]
  case queued =>
    intro j hj
    have hne : j ≠ i := fun heq => h.nodup.not_mem_erase (heq ▸ hj)
    rw [Vigil.stage?_set hs, if_neg hne]
    exact h.queued j (List.mem_of_mem_erase hj)
  case holding =>
    intro j hj
    split at hj
    · cases hj
    · next hi =>
      have hne : j ≠ i := fun heq => hi (heq ▸ hj)
      rw [Vigil.stage?_set hs, if_neg hne]
      exact h.holding j hj

theorem starts (h : Sound path name past v st holder) :
    Sound path name past (v.act .start) st holder where
  detector := h.detector
  place j s hj := by
    rw [Vigil.stage?_start] at hj
    split at hj
    · obtain rfl := Option.some.inj hj
      exact .entered
    · exact h.place j s hj
  queued j hj := by
    have hin := h.queued j hj
    rw [Vigil.stage?_start, if_neg (Vigil.ne_length_of_stage? hin), hin]
  nodup := h.nodup
  holding j hj := by
    have hin := h.holding j hj
    rw [Vigil.stage?_start, if_neg (Vigil.ne_length_of_stage? hin.1)]
    exact hin
  fits := h.fits

/-- The waits do not notice that the detector comes to stand otherwise. -/
theorem moves {st' : Standing} {past' : List Action} (h : Sound path name past v st holder)
    (hleads : st.Leads st') (hne : st ≠ .resolved → st' ≠ .resolved) (hfits : st'.Fits name past') :
    Sound path name past' { v with detector := st'.detector path name holder.isSome } st'
      holder where
  detector := rfl
  place j s hj := (h.place j s hj).imp hleads id id
  queued := h.queued
  nodup := h.nodup
  holding j hj := (h.holding j hj).imp_right hne
  fits := hfits

/-- **One step.** -/
theorem act (h : Sound path name past v st holder) (a : Action) :
    ∃ st' holder', Sound path name (past ++ [a]) (v.act a) st' holder' ∧ st.Leads st' := by
  cases a with
  | start => exact ⟨st, holder, h.starts.quiet nofun nofun, .refl st⟩
  | poll i =>
    cases hs : v.stage? i with
    | none =>
      rw [Vigil.act, Vigil.poll_eq_self hs]
      exact ⟨st, holder, h.quiet nofun nofun, .refl st⟩
    | some s =>
      have hpoll := h.poll hs
      generalize hv' : v.poll i = v' at hpoll
      rw [Vigil.act, hv']
      cases hpoll with
      | finished | queues => exact ⟨st, holder, h.quiet nofun nofun, .refl st⟩
      | joins => exact ⟨st, holder, (h.joins hs).quiet nofun nofun, .refl st⟩
      | told ho => exact ⟨st, holder, (h.told hs ho).quiet nofun nofun, .refl st⟩
      | turns hlock => exact ⟨_, _, (h.turns hs hlock).quiet nofun nofun, st.leads_turn⟩
  | giveUp i =>
    cases hs : v.stage? i with
    | none =>
      rw [Vigil.act, Vigil.giveUp_eq_self hs]
      exact ⟨st, holder, h.quiet nofun nofun, .refl st⟩
    | some s => exact ⟨st, _, (h.givesUp hs).quiet nofun nofun, .refl st⟩
  | notice c =>
    have hleads := st.leads_notice (c.brings name)
    rw [Vigil.act, h.detector, Standing.notice_detector]
    exact ⟨_, holder, h.moves hleads (by cases st <;> simp [Standing.notice]) (h.fits.notice c),
      hleads⟩
  | stop =>
    rw [Vigil.act, h.detector, Standing.stop_detector]
    exact ⟨_, holder, h.moves st.leads_stop (by cases st <;> simp [Standing.stop]) h.fits.stop,
      st.leads_stop⟩

theorem run (h : Sound path name past v st holder) (acts : List Action) :
    ∃ st' holder', Sound path name (past ++ acts) (v.run acts) st' holder' ∧ st.Leads st' := by
  induction acts generalizing past v st holder with
  | nil => exact ⟨st, holder, by simpa using h, .refl st⟩
  | cons a rest ih =>
    obtain ⟨_, _, hstep, hfirst⟩ := h.act a
    obtain ⟨st', holder', hrun, hlater⟩ := ih hstep
    exact ⟨st', holder', by simpa using hrun, hfirst.trans hlater⟩

/-- At first nobody waits. -/
theorem ofDetector (path name : String) :
    Sound path name [] (Vigil.ofDetector (.waiting path name)) (.watching 0) none where
  detector := rfl
  place _ _ := nofun
  queued _ := nofun
  nodup := .nil
  holding _ := nofun
  fits := ⟨nofun, by simp [Delivered]⟩

end Sound

/-! ## §4 Arrivals -/

namespace Sound

variable {path name : String} {past : List Action} {v : Vigil} {st : Standing}
  {holder : Option Nat} {i : Nat} {s : Stage}

theorem idxOf?_selecting (h : Sound path name past v st holder) :
    v.waits.idxOf? (some .selecting) = holder := by
  cases hfound : v.waits.idxOf? (some .selecting) with
  | none =>
    cases holder with
    | none => rfl
    | some i =>
      have hin := Vigil.stage?_eq_some.mp (h.holding i rfl).1
      exact absurd (List.mem_of_getElem? hin) (List.idxOf?_eq_none_iff.mp hfound)
  | some i =>
    obtain ⟨hlt, heq, -⟩ := List.idxOf?_eq_some_iff.mp hfound
    have hs : v.stage? i = some .selecting :=
      Vigil.stage?_eq_some.mpr (List.getElem?_eq_some_iff.mpr ⟨hlt, heq⟩)
    cases h.place i _ hs with
    | selecting hi => exact hi.symm

/-- The wait that holds the lock, or comes to it first, takes an arrival or
finds the detector resolved. -/
theorem poll_first (h : Sound path name past v st holder)
    (hturn : st.turn = (.resolved, .finished .resolved)) (hs : v.stage? i = some s)
    (hfirst : holder = some i ∨ holder = none ∧ v.queue.head? = some i) :
    Sound path name (past ++ [.poll i]) (v.poll i) .resolved none ∧
      (v.poll i).queue = v.queue.erase i ∧
      ∀ j, (v.poll i).stage? j = if j = i then some (.finished .resolved) else v.stage? j := by
  have hplace : holder = some i ∧ s = .selecting ∨
      (holder = none ∧ v.queue.head? = some i) ∧ s = .queueing := by
    refine hfirst.imp (fun hi => ⟨hi, ?_⟩) fun hi => ⟨hi, ?_⟩
    · exact Option.some.inj (hs.symm.trans (h.holding i hi).1)
    · exact Option.some.inj (hs.symm.trans (h.queued i (List.mem_of_mem_head? hi.2)))
  have hpoll := h.poll hs
  generalize hv' : v.poll i = v' at hpoll ⊢
  cases hpoll with
  | finished | joins | told => simp at hplace
  | queues hline => simp_all
  | turns hlock =>
    have hsound := (h.turns hs hlock).quiet (a := .poll i) nofun nofun
    refine ⟨?_, rfl, fun j => by rw [Vigil.stage?_set hs, hturn]⟩
    simpa [keeps, hturn, Stage.holdsLock] using hsound

/-- All that queue are served in their order. -/
theorem serve (h : Sound path name past v st none)
    (hturn : st.turn = (.resolved, .finished .resolved)) :
    ∃ past' st', Sound path name past' (v.run (v.queue.map .poll)) st' none ∧
      st'.turn = (.resolved, .finished .resolved) ∧ (v.run (v.queue.map .poll)).queue = [] ∧
      ∀ i s, v.stage? i = some s → ∃ s', (v.run (v.queue.map .poll)).stage? i = some s' := by
  generalize hqueue : v.queue = queue
  induction queue generalizing past v st with
  | nil => exact ⟨past, st, h, hturn, hqueue, fun i s hs => ⟨s, hs⟩⟩
  | cons i rest ih =>
    have hi := h.queued i (by simp [hqueue])
    obtain ⟨hsound, hrest, hstages⟩ := h.poll_first hturn hi (.inr ⟨rfl, by simp [hqueue]⟩)
    rw [hqueue, List.erase_cons_head] at hrest
    obtain ⟨past', st', hsound', hturn', hempty, hthere⟩ := ih hsound rfl hrest
    refine ⟨past', st', hsound', hturn', hempty, fun j s hs => ?_⟩
    have hj := hstages j
    split at hj
    · exact hthere j _ hj
    · exact hthere j s (hj.trans hs)

/-- With nobody at the lock a poll is the last one. -/
theorem poll_alone (h : Sound path name past v st none)
    (hturn : st.turn = (.resolved, .finished .resolved)) (hqueue : v.queue = [])
    (hs : v.stage? i = some s) : (v.poll i).outcome? i = some .resolved := by
  have htold {o : Outcome} (ho : st.outcome? = some o) : o = .resolved := by
    rcases st with (_ | n) | n | _ <;> simp_all [Standing.turn, Standing.outcome?]
  have hpoll := h.poll hs
  generalize hv' : v.poll i = v' at hpoll ⊢
  cases hpoll with
  | finished ho => rw [Vigil.outcome?, hs, htold ho]; rfl
  | queues => exact absurd (h.place i _ hs) (by rw [hqueue]; nofun)
  | joins _ hline => simp [hqueue] at hline
  | told ho => rw [Vigil.outcome?, Vigil.stage?_set hs, if_pos rfl, htold ho]; rfl
  | turns => rw [Vigil.outcome?, Vigil.stage?_set hs, if_pos rfl, hturn]; rfl

/-- **An arrival reaches every wait.** -/
theorem arrives (h : Sound path name past v st holder)
    (hturn : st.turn = (.resolved, .finished .resolved)) (hs : v.stage? i = some s) :
    (v.run (v.line.map .poll ++ [.poll i])).outcome? i = some .resolved := by
  rw [Vigil.run_append, Vigil.line, h.idxOf?_selecting]
  cases holder with
  | none =>
    obtain ⟨_, _, hsound, hturn', hempty, hthere⟩ := h.serve hturn
    obtain ⟨_, hs'⟩ := hthere i s hs
    exact hsound.poll_alone hturn' hempty hs'
  | some k =>
    have hk := (h.holding k rfl).1
    obtain ⟨hsound, hrest, hstages⟩ := h.poll_first hturn hk (.inl rfl)
    rw [List.erase_of_not_mem (h.not_mem_queue hk nofun)] at hrest
    have hthere : ∃ s', (v.poll k).stage? i = some s' := by
      have hi := hstages i
      split at hi
      · exact ⟨_, hi⟩
      · exact ⟨s, hi.trans hs⟩
    obtain ⟨s', hs'⟩ := hthere
    obtain ⟨_, _, hsound', hturn', hempty, hthere⟩ := hsound.serve rfl
    rw [hrest] at hsound' hempty hthere
    obtain ⟨_, hs''⟩ := hthere i s' hs'
    exact hsound'.poll_alone hturn' hempty hs''

end Sound

/-- What can be said of a vigil after some steps, of what comes after them
included. -/
structure Agree (name : String) (acts : List Action) (v : Vigil) : Prop where
  resolved : v.detector.resolved = true → Delivered name acts
  watching : v.detector.watching = true ↔ v.detector.resolved = false ∧ .stop ∉ acts
  told_resolved : ∀ i, v.outcome? i = some .resolved → v.detector.resolved = true
  told_stopped : ∀ i, v.outcome? i = some .stopped → .stop ∈ acts ∧ v.detector.resolved = false
  /-- Once resolved it stays so, and whoever ends his wait is told. -/
  stays_resolved : v.detector.resolved = true → ∀ more, (v.run more).detector.resolved = true ∧
    ∀ i o, (v.run more).outcome? i = some o → o = .resolved
  /-- Once stopped it is never resolved, whatever is queued or arrives. -/
  stays_stopped : .stop ∈ acts → v.detector.resolved = false → ∀ more,
    (v.run more).detector.resolved = false ∧ ∀ i, (v.run more).outcome? i ≠ some .resolved
  /-- Whoever was given up on the way, an arrival is still there: each wait
  is told when those at the lock have had their turns. -/
  arrival : Delivered name acts → .stop ∉ acts → ∀ i s, v.stage? i = some s →
    (v.run (v.line.map .poll ++ [.poll i])).outcome? i = some .resolved

namespace Sound

variable {path name : String} {past : List Action} {v : Vigil} {st : Standing}
  {holder : Option Nat}

theorem outcome?_eq (h : Sound path name past v st holder) {i : Nat} {o : Outcome}
    (ho : v.outcome? i = some o) : st.outcome? = some o := by
  obtain ⟨s, hs, hfinished⟩ := Option.bind_eq_some_iff.mp ho
  cases h.place i s hs with
  | finished hst => rw [hst, ← hfinished]; rfl
  | entered | queueing | selecting => cases hfinished

theorem resolved_iff (h : Sound path name past v st holder) :
    v.detector.resolved = true ↔ st = .resolved := by
  rw [h.detector]
  cases st <;> simp [Standing.detector]

theorem agree (h : Sound path name past v st holder) : Agree name past v where
  resolved hresolved := by
    obtain rfl := h.resolved_iff.mp hresolved
    exact h.fits
  watching := by
    have hfits := h.fits
    rw [h.detector]
    cases st <;> simp_all [Standing.detector, Standing.Fits]
  told_resolved i ho := by
    have hst := h.outcome?_eq ho
    rw [h.resolved_iff]
    cases st <;> simp_all [Standing.outcome?]
  told_stopped i ho := by
    have hst := h.outcome?_eq ho
    have hfits := h.fits
    rw [h.detector]
    cases st <;> simp_all [Standing.outcome?, Standing.Fits, Standing.detector]
  stays_resolved hresolved more := by
    obtain rfl := h.resolved_iff.mp hresolved
    obtain ⟨st', _, hsound, hleads⟩ := h.run more
    obtain rfl := hleads .resolved rfl
    refine ⟨hsound.resolved_iff.mpr rfl, fun i o ho => ?_⟩
    exact (Option.some.inj (hsound.outcome?_eq ho)).symm
  stays_stopped hstop hresolved more := by
    obtain ⟨n, rfl⟩ : ∃ n, st = .stopped n := by
      have hfits := h.fits
      rw [h.detector] at hresolved
      cases st <;> simp_all [Standing.detector, Standing.Fits]
    obtain ⟨st', _, hsound, hleads⟩ := h.run more
    obtain rfl := hleads .stopped rfl
    refine ⟨by rw [hsound.detector]; rfl, fun i ho => ?_⟩
    cases hsound.outcome?_eq ho
  arrival hdelivered hstop i s hs := by
    refine h.arrives ?_ hs
    have hfits := h.fits
    rcases st with (_ | n) | n | _ <;> simp_all [Standing.Fits, Standing.turn]

end Sound

/-- **All waits for one marker agree.** However many there are, and whatever
polls, arrivals, stops and ends half-way come in what order. -/
theorem waits_agree {dir : String} {id : TaskRunId} {watch : Except WatchFault Unit} {d : Detector}
    (hstart : Detector.start dir id false watch = .ok d) (acts : List Action) :
    Agree (markerFileName id) acts ((Vigil.ofDetector d).run acts) := by
  cases watch with
  | error fault => cases hstart
  | ok _ =>
    obtain rfl := Except.ok.inj hstart
    obtain ⟨_, _, hsound, -⟩ :=
      (Sound.ofDetector (Files.join dir (markerFileName id)) (markerFileName id)).run acts
    exact hsound.agree

/-- The marker of a task run is created. -/
def created : Change := ⟨.created, ["/runs/minimax-complete-abc"]⟩

/-- Two waits, the first of which is given up with the lock in its hands
when the marker has arrived. -/
def handedOn : List Action :=
  [.start, .poll 0, .start, .poll 1, .notice created, .giveUp 0]

/-- The second one comes to the lock, and is told. -/
theorem handedOn_agree :
    ∃ d, Detector.start "runs" ⟨"abc"⟩ false (.ok ()) = .ok d ∧
      Agree (markerFileName ⟨"abc"⟩) handedOn ((Vigil.ofDetector d).run handedOn) ∧
      ((Vigil.ofDetector d).run handedOn).line = [1] ∧
      (((Vigil.ofDetector d).run handedOn).run [.poll 1, .poll 1]).outcome? 1 = some .resolved := by
  have hagree := waits_agree (rfl : Detector.start "runs" ⟨"abc"⟩ false (.ok ()) = .ok _) handedOn
  have harrived : Delivered (markerFileName ⟨"abc"⟩) handedOn :=
    ⟨[.start, .poll 0, .start, .poll 1], created, [.giveUp 0], rfl, by decide, by decide⟩
  exact ⟨_, rfl, hagree, by decide, hagree.arrival harrived (by decide) 1 .queueing (by decide)⟩

end Runwatch.Marker
