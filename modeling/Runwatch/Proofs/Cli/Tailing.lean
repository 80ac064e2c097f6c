/-
Runwatch.Proofs.Cli.Tailing — printing a log up to its finish.

A command that prints the events of a log until an agent has finished is two
tasks. The read loop reads, looks whether the detector is stopped, takes the
observers out of the registry, tells the printer and the waiter, and puts
them back. The command waits for the waiter's event or for the user; then it
gives up the wait, raises the flag, drops the watch and clears the registry.
Each of these is a step, and between any two of one task there may be any
number of the other; the log grows all the while, and a read may fail.

  §1 Tasks    — where the two stand (`Turn`, `Stage`), and their steps in any
                order (`Tailing.Step`).
  §2 Turns    — a step of the loop that nobody interrupts, a dispatch with it,
                are such steps (`Tailing.steps_advance`).
  §3 Sessions — and so is all that a session does that tails a log
                (`Tails.exists_reachable`).
-/
import Runwatch.Cli.Session
import Runwatch.Proofs.Telemetry.Following
import Runwatch.Proofs.Telemetry.Shutdown

namespace Runwatch.Cli

open Telemetry (Change Detector Event EventTest DetectError Hub Observer ObserverId Phase Sight Telling
  classify)

/-! ## §1 Tasks -/

/-- The number of the observer that prints. -/
def printerId : ObserverId := 0

/-- The number of the observer that waits for the finish. -/
def waiterId : ObserverId := 1

/-- The number of its mailbox. -/
def waiterKey : Nat := 0

/-- What the read loop is doing with an event. -/
inductive Turn where
  /-- There is none; it waits, or it reads, or it has come to an end. -/
  | none
  /-- It has seen that the detector is not stopped, and will tell of it. -/
  | called (e : Event)
  | telling (t : Telling Unit)

/-- Why the command has stopped waiting. -/
inductive Ending where
  | answered (r : Except DetectError Event)
  | interrupted

/-- How far the command is. -/
inductive Stage where
  | waiting
  /-- It has not given up its wait yet. -/
  | leaving (why : Ending)
  /-- It has, and stops the detector. -/
  | stopping (why : Ending)
  | flagged (why : Ending)
  | unwatched (why : Ending)
  | cleared (why : Ending)

/-- Why it has stopped waiting, if it has. -/
def Stage.ending? : Stage → Option Ending
  | .waiting => none
  | .leaving why | .stopping why | .flagged why | .unwatched why | .cleared why => some why

/-- What the command comes to. -/
def Ending.result : Ending → Except CommandError Unit
  | .answered r => (r.map fun _ => ()).mapError .detect
  | .interrupted => .ok ()

/-- The follower of a command with the log that it reads, and where the two
tasks stand. -/
structure Tailing where
  follower : Follower
  log : Option (List UInt8)
  turn : Turn
  stage : Stage

/-- A log was only appended to, or created with its first bytes. -/
def Grows (log log' : Option (List UInt8)) : Prop :=
  log' = log ∨ ∃ added, log' = some (log.getD [] ++ added)

/-- What a read can find of a log: the log as it is, or that it cannot be
read. -/
inductive Finds : Option (List UInt8) → Sight → Prop where
  | missing : Finds none .missing
  | log (bytes : List UInt8) : Finds (some bytes) (.log bytes)
  | closed (log : Option (List UInt8)) (fault : Files.Fault) : Finds log (.closed fault)
  | unreadable (bytes : List UInt8) (fault : Files.Fault) :
      Finds (some bytes) (.unreadable bytes.length fault)

namespace Tailing

def bytes (s : Tailing) : List UInt8 := s.log.getD []

/-- The lines that are printed. -/
def printed (s : Tailing) : List String := s.follower.hub.world.user

def withFollower (s : Tailing) (d : Follower) : Tailing := { s with follower := d }

/-- The loop goes on with these values. -/
def atValues (d : Follower) (tail : Telemetry.Tail) (values : List Json.Value) : Follower :=
  { d with loop := some ⟨tail, .delivering values⟩ }

/-- The steps of the two tasks, and of the log that they follow, in any
order. -/
inductive Step (s : Tailing) : Tailing → Prop where
  | grows (log : Option (List UInt8)) (h : Grows s.log log) : Step s { s with log := log }
  /-- A change reaches the watch, of the log or not. -/
  | signal : Step s (s.withFollower { s.follower with signals := s.follower.signals + 1 })
  /-- The loop does anything but tell of an event. -/
  | reads {sight : Sight} {d : Follower} (hturn : s.turn = .none) (hfinds : Finds s.log sight)
      (hquiet : s.follower.dispatching = [])
      (h : s.follower.advance followerBehaviour 1 sight = some d) : Step s (s.withFollower d)
  | calls {tail v rest} (hturn : s.turn = .none)
      (hloop : s.follower.loop = some ⟨tail, .delivering (v :: rest)⟩)
      (hlive : s.follower.isStopped = false) :
      Step s { s with follower := atValues s.follower tail rest, turn := .called (classify v) }
  | opens {e} (hturn : s.turn = .called e) :
      Step s { s with
        follower := s.follower.withHub s.follower.hub.takeBatch.1
        turn := .telling ⟨e, [], s.follower.hub.takeBatch.2⟩ }
  | tells {e told id o untold hub next} (hturn : s.turn = .telling ⟨e, told, (id, o) :: untold⟩)
      (hrun : Hub.runScript followerBehaviour (fun _ _ => none) (followerBehaviour.react o e)
        s.follower.hub = some (hub, next)) :
      Step s { s with
        follower := s.follower.withHub hub
        turn := .telling ⟨e, told ++ [(id, next)], untold⟩ }
  | closes {e told} (hturn : s.turn = .telling ⟨e, told, []⟩) :
      Step s { s with
        follower := s.follower.withHub (s.follower.hub.mergeBatch followerBehaviour told)
        turn := .none }
  | answered {r} (hstage : s.stage = .waiting)
      (h : (s.follower.pollWait waiterKey).2 = some r) :
      Step s { s with
        follower := (s.follower.pollWait waiterKey).1
        stage := .leaving (.answered r) }
  | interrupted (hstage : s.stage = .waiting) : Step s { s with stage := .leaving .interrupted }
  | leaves {why} (hstage : s.stage = .leaving why) :
      Step s { s with
        follower := s.follower.endWait followerBehaviour waiterId waiterKey
        stage := .stopping why }
  | flags {why} (hstage : s.stage = .stopping why) :
      Step s { s with follower := s.follower.raiseFlag, stage := .flagged why }
  | unwatches {why} (hstage : s.stage = .flagged why) :
      Step s { s with follower := s.follower.dropWatch, stage := .unwatched why }
  | clears {why} (hstage : s.stage = .unwatched why) :
      Step s { s with follower := s.follower.clear followerBehaviour, stage := .cleared why }
  /-- The loop is given up between two events, where nobody holds the
  detector any more. -/
  | givenUp {why l} (hstage : s.stage = .cleared why) (hturn : s.turn = .none)
      (hloop : s.follower.loop = some l) :
      Step s (s.withFollower { s.follower with loop := some ⟨l.tail, .ended⟩ })

/-- The steps from one state to another. -/
abbrev Steps : Tailing → Tailing → Prop := Relation.ReflTransGen Step

/-- The states that a command comes to that has started its detector,
whatever is in the log then. -/
inductive Reachable : Tailing → Prop where
  | begins {w : Surroundings} {settings : Settings} {taskRun : String} {logPath : Option String}
      {d : Follower} (log : Option (List UInt8))
      (h : (Session.beginCommand w settings (.tailTelemetry taskRun logPath true)).activity =
        .tail d waiterKey true) : Reachable ⟨d, log, .none, .waiting⟩
  | step {s s'} (h : Reachable s) (hstep : Step s s') : Reachable s'

theorem Reachable.steps {s s' : Tailing} (h : Reachable s) (hsteps : Steps s s') : Reachable s' := by
  induction hsteps with
  | refl => exact h
  | tail _ hstep ih => exact ih.step hstep

/-! ## §2 Turns -/

/-- Telling a batch of observers is telling one after the other. -/
theorem steps_batch {s : Tailing} {e : Event} {told untold : List (ObserverId × Observer Unit)}
    (hturn : s.turn = .telling ⟨e, told, untold⟩) {hub : Hub (Observer Unit) _}
    {done : List (ObserverId × Observer Unit)}
    (hbatch : Hub.runBatch followerBehaviour (fun _ _ => none) e untold s.follower.hub =
      some (hub, done)) :
    Steps s { s with
      follower := s.follower.withHub hub
      turn := .telling ⟨e, told ++ done, []⟩ } := by
  induction untold generalizing s told done with
  | nil =>
    obtain ⟨rfl, rfl⟩ := Prod.mk.inj (Option.some.inj hbatch)
    rw [List.append_nil, ← hturn]
    exact .refl
  | cons first rest ih =>
    obtain ⟨⟨hub₁, next⟩, hfirst, hlater⟩ := Option.bind_eq_some_iff.mp hbatch
    obtain ⟨⟨hub₂, later⟩, hrest, heq⟩ := Option.bind_eq_some_iff.mp hlater
    obtain ⟨rfl, rfl⟩ := Prod.mk.inj (Option.some.inj heq)
    have hfirst : Step s _ := .tells hturn hfirst
    simpa using (ih rfl hrest).head hfirst

/-- A dispatch that nobody interrupts. -/
theorem steps_dispatch {s : Tailing} {e : Event} (hturn : s.turn = .called e)
    {hub : Hub (Observer Unit) _}
    (hdispatch : Hub.dispatch followerBehaviour 1 e s.follower.hub = some hub) :
    Steps s { s with follower := s.follower.withHub hub, turn := .none } := by
  obtain ⟨⟨hub₁, done⟩, hbatch, heq⟩ := Option.bind_eq_some_iff.mp hdispatch
  obtain rfl := Option.some.inj heq
  have hopen : Step s _ := .opens hturn
  have htell := steps_batch (s := { s with
    follower := s.follower.withHub s.follower.hub.takeBatch.1
    turn := .telling ⟨e, [], s.follower.hub.takeBatch.2⟩ }) rfl hbatch
  exact (htell.head hopen).tail (.closes rfl)

/-- A step of the loop that tells of an event is the call and the dispatch. -/
theorem calls_of_advance {d d' : Follower} {sight : Sight} {e : Event}
    (htells : d.dispatching = [e]) (h : d.advance followerBehaviour 1 sight = some d') :
    ∃ tail v rest hub, d.loop = some ⟨tail, .delivering (v :: rest)⟩ ∧ d.isStopped = false ∧
      Hub.dispatch followerBehaviour 1 (classify v) d.hub = some hub ∧
      d' = (atValues d tail rest).withHub hub := by
  unfold Detector.dispatching at htells
  split at htells
  case h_2 => cases htells
  case h_1 tail v rest hloop =>
    split at htells
    · cases htells
    · next hlive =>
      rw [Detector.advance, hloop] at h
      simp only [hlive] at h
      obtain ⟨hub, hdispatch, heq⟩ := Option.bind_eq_some_iff.mp h
      exact ⟨tail, v, rest, hub, hloop, by simpa using hlive, hdispatch,
        (Option.some.inj heq).symm⟩

/-- A step of the loop that nobody interrupts. -/
theorem steps_advance {s : Tailing} (hturn : s.turn = .none) {sight : Sight}
    (hfinds : Finds s.log sight) {d : Follower}
    (h : s.follower.advance followerBehaviour 1 sight = some d) : Steps s (s.withFollower d) := by
  rcases Detector.advance_cases h with ⟨hquiet, -⟩ | ⟨e, htells, -, -⟩
  · exact .single (.reads hturn hfinds hquiet h)
  · obtain ⟨tail, v, rest, hub, hloop, hlive, hdispatch, rfl⟩ := calls_of_advance htells h
    have hcall : Step s _ := .calls hturn hloop hlive
    have hsteps := (steps_dispatch (s := { s with
      follower := atValues s.follower tail rest
      turn := .called (classify v) }) rfl hdispatch).head hcall
    rwa [← hturn] at hsteps

end Tailing

/-! ## §3 Sessions -/

/-- Letting observers go prints nothing. -/
theorem user_releaseAll (gone : List (ObserverId × Observer Unit))
    (c : Telemetry.Control (List String)) :
    (Hub.releaseAll followerBehaviour gone c).user = c.user := by
  induction gone generalizing c with
  | nil => rfl
  | cons o rest ih => obtain ⟨id, _ | _⟩ := o <;> exact ih _

theorem user_unsubscribe (d : Follower) (id : ObserverId) :
    (d.unsubscribe followerBehaviour id).1.hub.world.user = d.hub.world.user := by
  unfold Detector.unsubscribe Hub.unsubscribe
  simp only
  split
  · exact user_releaseAll _ _
  · split <;> rfl

namespace Tailing

/-- A command that has stopped waiting comes to its end and prints nothing
more. -/
theorem exists_over {s : Tailing} {why : Ending} (hstage : s.stage = .leaving why) :
    ∃ d, Steps s { s with follower := d, stage := .cleared why } ∧ d.hub.world.user = s.printed := by
  have hleave : Steps s _ := .single (.leaves hstage)
  have hflag := hleave.tail (.flags rfl)
  have hunwatch := hflag.tail (.unwatches rfl)
  refine ⟨_, hunwatch.tail (.clears rfl), ?_⟩
  exact (user_releaseAll _ _).trans (user_unsubscribe s.follower waiterId)

end Tailing

/-- A session that tails a log up to its finish, while that log is only
appended to: it is begun, files change, directories report it, the read loop
takes steps, the command looks for its event, and the user may interrupt
it. -/
inductive Tails : Session → Option (List UInt8) → Prop where
  | begins {w : Surroundings} {settings : Settings} {taskRun : String} {logPath : Option String}
      {d : Follower} {log : Option (List UInt8)}
      (h : (Session.beginCommand w settings (.tailTelemetry taskRun logPath true)).activity =
        .tail d waiterKey true)
      (hfinds : Finds log (Sight.of w.tree d.path)) :
      Tails (Session.beginCommand w settings (.tailTelemetry taskRun logPath true)) log
  | edits {s log} (h : Tails s log) (tree : Files.Tree) (log' : Option (List UInt8))
      (hgrows : Grows log log') (hfinds : ∀ path ∈ s.watched?, Finds log' (Sight.of tree path)) :
      Tails { s with tree := tree } log'
  | notices {s log} (h : Tails s log) (c : Change) : Tails (s.notice c) log
  | advances {s log} (h : Tails s log) : Tails s.advance log
  | attends {s log} (h : Tails s log) : Tails s.attend log
  | interrupts {s log} (h : Tails s log) : Tails s.interrupt log

/-- A session as a state of the two tasks. -/
inductive Shows (s : Session) (t : Tailing) : Prop where
  | running (hactivity : s.activity = .tail t.follower waiterKey true) (hprinted : s.printed = [])
      (hturn : t.turn = .none) (hstage : t.stage = .waiting)
      (hfinds : Finds t.log (Sight.of s.tree t.follower.path))
  | ended {why : Ending} (hactivity : s.activity = .over why.result)
      (hprinted : s.printed = t.printed) (hstage : t.stage = .cleared why)

theorem Shows.lines {s : Session} {t : Tailing} (h : Shows s t) : s.lines = t.printed := by
  unfold Session.lines
  cases h with
  | running hactivity hprinted _ _ _ => simp [hactivity, hprinted, Tailing.printed]
  | ended hactivity hprinted _ => simp [hactivity, hprinted]

theorem printed_begun (w : Surroundings) (settings : Settings) (taskRun : String)
    (logPath : Option String) (untilFinish : Bool) :
    (Session.beginCommand w settings (.tailTelemetry taskRun logPath untilFinish)).printed = [] := by
  simp only [Session.beginCommand, Session.beginFollowing]
  split <;> rfl

/-- A change that reaches the watch of a follower. -/
theorem Tailing.steps_signal (t : Tailing) : Steps t (t.withFollower t.follower.signal) := by
  unfold Detector.signal
  split
  · exact .single .signal
  · exact .refl

/-- Nothing happens any more to a session that is over. -/
theorem over_stays {s : Session} {r : Except CommandError Unit} (h : s.activity = .over r) :
    (∀ c, s.notice c = s) ∧ s.advance = s ∧ s.attend = s ∧ s.interrupt = s := by
  simp [Session.notice, Session.advance, Session.attend, Session.interrupt, Session.onFollower, h]

/-- A session that has stopped waiting. -/
theorem Shows.finish {s : Session} {t : Tailing} {why : Ending} (hreached : t.Reachable)
    (hstage : t.stage = .leaving why) (hlines : s.lines = t.printed) :
    ∃ t' : Tailing, t'.Reachable ∧ t'.log = t.log ∧ Shows (s.finish why.result) t' := by
  obtain ⟨d, hsteps, huser⟩ := Tailing.exists_over hstage
  exact ⟨_, hreached.steps hsteps, rfl, .ended rfl (hlines.trans huser.symm) rfl⟩

/-- **A session that tails a log goes through states of the two tasks.** -/
theorem Tails.exists_reachable {s : Session} {log : Option (List UInt8)} (h : Tails s log) :
    ∃ t : Tailing, t.Reachable ∧ t.log = log ∧ Shows s t := by
  induction h with
  | @begins w settings taskRun logPath d log h hfinds =>
    have htree : (Session.beginCommand w settings (.tailTelemetry taskRun logPath true)).tree =
        w.tree := by
      simp only [Session.beginCommand, Session.beginFollowing]
      split <;> rfl
    exact ⟨_, .begins log h, rfl, .running h (printed_begun _ _ _ _ _) rfl rfl (htree ▸ hfinds)⟩
  | edits _ tree log' hgrows hfinds ih =>
    obtain ⟨t, hreached, rfl, hshows⟩ := ih
    refine ⟨_, hreached.step (.grows log' hgrows), rfl, ?_⟩
    cases hshows with
    | running hactivity hprinted hturn hstage _ =>
      refine .running hactivity hprinted hturn hstage (hfinds _ ?_)
      simp [Session.watched?, hactivity]
    | ended hactivity hprinted hstage => exact .ended hactivity hprinted hstage
  | @notices s log _ c ih =>
    obtain ⟨t, hreached, rfl, hshows⟩ := ih
    cases hshows with
    | running hactivity hprinted hturn hstage hfinds =>
      have hpath : t.follower.signal.path = t.follower.path := by
        unfold Detector.signal
        split <;> rfl
      unfold Session.notice Session.onFollower
      simp only [hactivity]
      split
      · refine ⟨_, hreached.steps t.steps_signal, rfl, .running rfl hprinted hturn hstage ?_⟩
        exact hpath.symm ▸ hfinds
      · exact ⟨t, hreached, rfl, .running rfl hprinted hturn hstage hfinds⟩
    | ended hactivity hprinted hstage =>
      rw [(over_stays hactivity).1 c]
      exact ⟨t, hreached, rfl, .ended hactivity hprinted hstage⟩
  | @advances s log _ ih =>
    obtain ⟨t, hreached, rfl, hshows⟩ := ih
    cases hshows with
    | running hactivity hprinted hturn hstage hfinds =>
      unfold Session.advance Session.onFollower
      simp only [hactivity]
      cases hadvance : t.follower.advance followerBehaviour 1 (Sight.of s.tree t.follower.path) with
      | none => exact ⟨t, hreached, rfl, .running rfl hprinted hturn hstage hfinds⟩
      | some d =>
        refine ⟨_, hreached.steps (Tailing.steps_advance hturn hfinds hadvance), rfl,
          .running rfl hprinted hturn hstage ?_⟩
        exact (Detector.advance_frame hadvance).1.symm ▸ hfinds
    | ended hactivity hprinted hstage =>
      rw [(over_stays hactivity).2.1]
      exact ⟨t, hreached, rfl, .ended hactivity hprinted hstage⟩
  | @attends s log _ ih =>
    obtain ⟨t, hreached, rfl, hshows⟩ := ih
    cases hshows with
    | running hactivity hprinted hturn hstage hfinds =>
      unfold Session.attend
      simp only [hactivity]
      cases hpoll : t.follower.pollWait waiterKey with
      | mk d found =>
        cases found with
        | none =>
          obtain rfl := Detector.pollWait_none hpoll
          exact ⟨t, hreached, rfl, .running rfl hprinted hturn hstage hfinds⟩
        | some r =>
          have hstep : Tailing.Step t _ := .answered hstage (congrArg Prod.snd hpoll)
          rw [hpoll] at hstep
          obtain ⟨t', hreached', hlog, hshows⟩ := Shows.finish
            (s := { s with activity := .tail d waiterKey true }) (hreached.step hstep) rfl
            (by simp [Session.lines, hprinted, Tailing.printed])
          exact ⟨t', hreached', hlog, hshows⟩
    | ended hactivity hprinted hstage =>
      rw [(over_stays hactivity).2.2.1]
      exact ⟨t, hreached, rfl, .ended hactivity hprinted hstage⟩
  | @interrupts s log _ ih =>
    obtain ⟨t, hreached, rfl, hshows⟩ := ih
    have hlines := hshows.lines
    cases hshows with
    | running hactivity hprinted hturn hstage hfinds =>
      have hstep : Tailing.Step t _ := .interrupted hstage
      have hsame : s.interrupt = s.finish (Ending.result .interrupted) := by
        simp [Session.interrupt, hactivity, Ending.result]
      rw [hsame]
      obtain ⟨t', hreached', hlog, hshows⟩ := Shows.finish (hreached.step hstep) rfl hlines
      exact ⟨t', hreached', hlog, hshows⟩
    | ended hactivity hprinted hstage =>
      rw [(over_stays hactivity).2.2.2]
      exact ⟨t, hreached, rfl, .ended hactivity hprinted hstage⟩

end Runwatch.Cli
