/-
Runwatch.Proofs.Telemetry.Outlook — a lookout finds the first event.

A lookout is a wait on a detector that nobody else uses. What the wait comes
to is known from the events that its detector has dispatched (`Run.awaits`).
If the log only grows these are the first events in it
(`Reachable.dispatched_isPrefix`), and nothing stops the read loop before it
has read all of it.

  §1 Waiters      — waiters stop nothing, and a dispatch to them is a run in
                    which nothing else is heard of.
  §2 Parking      — a loop that is left alone parks, with no signal queued.
  §3 Outlooks     — a lookout with the events dispatched, what each step
                    keeps (`Standing`), and what follows if the log only
                    grows (`Tracks`).
  §4 First events — what waits and lookouts find (`wait_finds_first`).
-/
import Runwatch.Proofs.Telemetry.Following
import Runwatch.Proofs.Telemetry.Waiting
import Runwatch.Telemetry.Lookout

namespace Runwatch.Telemetry

open Json (Value)

/-! ## §1 Waiters -/

/-- What waiters leave alone in the world. -/
def Control.SameCourse (c c' : Control Unit) : Prop :=
  c'.cancelled = c.cancelled ∧ c'.watching = c.watching

theorem sameCourse_batch
    {nested : Event → Hub (Observer Empty) (Control Unit) →
      Option (Hub (Observer Empty) (Control Unit))}
    {e : Event} {batch done : List (ObserverId × Observer Empty)}
    {h h' : Hub (Observer Empty) (Control Unit)}
    (hbatch : Hub.runBatch waitersOnly nested e batch h = some (h', done)) :
    h.world.SameCourse h'.world := by
  induction batch generalizing h done with
  | nil =>
    obtain ⟨rfl, -⟩ := Prod.mk.inj (Option.some.inj hbatch)
    exact ⟨rfl, rfl⟩
  | cons first rest ih =>
    obtain ⟨id, ⟨key, accepts, asked, fired⟩ | o⟩ := first
    · obtain ⟨⟨h₁, next⟩, hfirst, hlater⟩ := Option.bind_eq_some_iff.mp hbatch
      obtain ⟨⟨h₂, later⟩, hrest, heq⟩ := Option.bind_eq_some_iff.mp hlater
      obtain ⟨rfl, -⟩ := Prod.mk.inj (Option.some.inj heq)
      have hcourse : h.world.SameCourse h₁.world := by
        rcases Scene.waiterReaction_cases hfirst with
          ⟨-, rfl, -⟩ | ⟨-, -, rfl, -⟩ | ⟨-, -, rfl, -⟩ <;> exact ⟨rfl, rfl⟩
      exact ⟨(ih hrest).1.trans hcourse.1, (ih hrest).2.trans hcourse.2⟩
    · exact nomatch o

theorem sameCourse_dispatch {depth : Nat} {e : Event}
    {h h' : Hub (Observer Empty) (Control Unit)}
    (hdispatch : Hub.dispatch waitersOnly depth e h = some h') : h.world.SameCourse h'.world := by
  cases depth with
  | zero => cases hdispatch
  | succ depth =>
    obtain ⟨⟨h₁, done⟩, hbatch, heq⟩ := Option.bind_eq_some_iff.mp hdispatch
    obtain rfl := Option.some.inj heq
    obtain ⟨hcancelled, hwatching⟩ := sameCourse_batch hbatch
    exact ⟨(releaseAll_frame _ _ _).1.trans hcancelled,
      (watching_releaseAll _ _ _).trans hwatching⟩

theorem orderly_nobody (o : Empty) (e : Event) :
    Orderly ((fun o => nomatch o : Empty → Event → Reaction Empty Unit) o e) := nomatch o

/-- A dispatch to waiters is a run in which nothing else is heard of. -/
theorem exists_run_of_dispatch {d : Detector Empty Unit} {depth : Nat} {e : Event}
    {hub : Hub (Observer Empty) (Control Unit)} {futures : List (ObserverId × Nat)}
    (h : Hub.dispatch waitersOnly depth e d.hub = some hub) :
    ∃ later, Scene.Run waitersOnly ⟨d, none, futures⟩ (.began e :: later)
        ⟨d.withHub hub, none, futures⟩ ∧ ∀ h ∈ later, h.IsCalm := by
  cases depth with
  | zero => cases h
  | succ depth =>
    obtain ⟨hub', later, futures', hdispatch, hrun, -, halone⟩ :=
      Scene.exists_run_dispatch orderly_nobody (s := ⟨d, none, futures⟩) rfl depth e
    obtain rfl := Option.some.inj (h.symm.trans hdispatch)
    obtain ⟨rfl, hcalm⟩ := halone nofun
    exact ⟨later, hrun, hcalm⟩

/-! ## §2 Parking -/

namespace Detector

variable {d d' : Detector Empty Unit} {depth : Nat} {sight : Sight}

/-- The read loop stops nothing as long as there are only waiters. -/
theorem sameCourse_advance (h : d.advance waitersOnly depth sight = some d') :
    d.hub.world.SameCourse d'.hub.world := by
  rcases advance_cases h with ⟨-, hhub⟩ | ⟨e, -, -, hdispatch⟩
  · exact hhub ▸ ⟨rfl, rfl⟩
  · exact sameCourse_dispatch hdispatch

/-- A loop that cannot go on is parked, and no signal is queued. -/
theorem parked_of_advance_eq_none {log : Option (List UInt8)} {l : ReadLoop}
    (hloop : d.loop = some l) (hlive : d.isStopped = false) (hrunning : l.phase ≠ .ended)
    (h : d.advance waitersOnly (depth + 1) (Sight.ofLog log) = none) :
    l.phase = .parked ∧ d.signals = 0 := by
  obtain ⟨tail, phase⟩ := l
  unfold advance at h
  simp only [hloop] at h
  cases phase with
  | ended => exact absurd rfl hrunning
  | parked =>
    simp only [hlive] at h
    refine ⟨rfl, by_contra fun hsignals => ?_⟩
    simp [hsignals] at h
  | draining => cases h
  | looking => cases log <;> cases h
  | measuring => cases log <;> cases h
  | reading length => cases log <;> cases h
  | delivering values =>
    cases values with
    | nil => cases h
    | cons v rest =>
      obtain ⟨hub, -, -, hdispatch, -⟩ :=
        Scene.exists_run_dispatch orderly_nobody (s := ⟨d, none, []⟩) rfl depth (classify v)
      have hended : Hub.dispatch waitersOnly (depth + 1) (classify v) d.hub = some hub := hdispatch
      simp [hlive, hended] at h

end Detector

/-- How far a loop is from being parked. -/
def Phase.rank : Phase → Nat
  | .draining => 5
  | .looking => 4
  | .measuring => 3
  | .reading _ => 2
  | .delivering _ => 1
  | .parked => 0
  | .ended => 0

/-- How many objects it has still to dispatch. -/
def Phase.left : Phase → Nat
  | .delivering values => values.length
  | _ => 0

/-- A step of a loop that is not stopped takes a signal, or comes nearer to
being parked. -/
theorem LoopStep.decreases {log : Option (List UInt8)} {l l' : ReadLoop} {signals signals' : Nat}
    {events : List Event} (h : LoopStep false log l signals l' signals' events) :
    l'.phase ≠ .ended ∧ (signals' < signals ∨ signals' ≤ signals ∧
      (l'.phase.rank < l.phase.rank ∨
        l'.phase.rank = l.phase.rank ∧ l'.phase.left < l.phase.left)) := by
  cases h <;> simp_all [Phase.rank, Phase.left]

/-- **A loop that is left alone parks**, with no signal queued, and stays so. -/
theorem Detector.exists_parked (depth : Nat) (log : Option (List UInt8)) {d : Detector Empty Unit}
    {l : ReadLoop} (hloop : d.loop = some l) (hlive : d.isStopped = false)
    (hrunning : l.phase ≠ .ended) :
    ∃ n d' tail, d'.loop = some ⟨tail, .parked⟩ ∧ d'.signals = 0 ∧
      ∀ fuel, d.runLoop waitersOnly (depth + 1) (Sight.ofLog log) (n + fuel) = d' := by
  cases hadvance : d.advance waitersOnly (depth + 1) (Sight.ofLog log) with
  | none =>
    obtain ⟨hphase, hsignals⟩ := parked_of_advance_eq_none hloop hlive hrunning hadvance
    refine ⟨0, d, l.tail, by rw [hloop, ← hphase], hsignals, fun fuel => ?_⟩
    cases fuel with
    | zero => rfl
    | succ fuel => rw [Nat.zero_add, runLoop, hadvance]
  | some d₁ =>
    obtain ⟨l₁, hloop₁, hstep, -⟩ := advance_loopStep hloop hadvance
    rw [hlive] at hstep
    have hlive₁ : d₁.isStopped = false := (sameCourse_advance hadvance).1.trans hlive
    have hnearer := hstep.decreases.2
    obtain ⟨n, d', tail, hparked, hsignals, hrun⟩ :=
      exists_parked depth log hloop₁ hlive₁ hstep.decreases.1
    refine ⟨n + 1, d', tail, hparked, hsignals, fun fuel => ?_⟩
    rw [Nat.add_right_comm, runLoop, hadvance]
    exact hrun fuel
termination_by (d.signals, l.phase.rank, l.phase.left)
decreasing_by
  simp only [Prod.lex_def]
  omega

/-! ## §3 Outlooks -/

namespace Following

variable {κ υ : Type} {b : Behaviour (Observer κ) (Control υ)} {s : Following κ υ}

/-- What is dispatched are the first events in the log. -/
theorem Reachable.dispatched_isPrefix (h : Reachable b s) :
    s.dispatched <+: (Stream.start.feed s.bytes).2.map classify := h.inv.dispatched_isPrefix

/-- Once the loop is parked and nothing will wake it, these are all. -/
theorem Reachable.dispatched_parked (h : Reachable b s) {tail : Tail}
    (hparked : s.detector.loop = some ⟨tail, .parked⟩) (hsignals : s.detector.signals = 0)
    (howed : s.owed = false) : s.dispatched = (Stream.start.feed s.bytes).2.map classify := by
  obtain ⟨l, content, objects, hloop, hread, -, htold, hcaught⟩ := h.inv
  obtain rfl : l = ⟨tail, .parked⟩ := Option.some.inj (hloop.symm.trans hparked)
  have hall : content = s.bytes := hcaught.resolve_right (by simp [Wakes, hsignals, howed])
  rw [← hall, hread.stream]
  exact htold

end Following

/-- A lookout with the events that its detector has dispatched so far, in
order. -/
structure Outlook where
  lookout : Lookout
  dispatched : List Event

/-- Nothing is left of a detector: it is stopped, watches nothing and has no
observers. -/
structure Detector.IsClosed (d : Detector Empty Unit) : Prop where
  stopped : d.isStopped = true
  watching : d.hub.world.watching = false
  idle : d.hub.registry.idle = []
  inFlight : d.hub.registry.inFlight = []

theorem Detector.isClosed_stop {d : Detector Empty Unit} (h : d.hub.registry.inFlight = []) :
    (d.stop waitersOnly).IsClosed where
  stopped := (releaseAll_frame _ d.hub.registry.idle d.hub.world.cancel).1
  watching := watching_releaseAll _ d.hub.registry.idle d.hub.world.cancel
  idle := rfl
  inFlight := h

theorem Detector.IsClosed.endWait {d : Detector Empty Unit} (h : d.IsClosed) (id : ObserverId)
    (key : Nat) : (d.endWait waitersOnly id key).IsClosed := by
  have hsame : (d.unsubscribe waitersOnly id).1 = d := by
    simp [unsubscribe, Hub.unsubscribe, h.idle, h.inFlight]
  rw [Detector.endWait, hsame]
  exact ⟨h.stopped, h.watching, h.idle, h.inFlight⟩

namespace Outlook

def withDetector (s : Outlook) (d : Detector Empty Unit) : Outlook :=
  { s with lookout := { s.lookout with detector := d } }

/-- The loop has gone on to `d`. -/
def advanced (s : Outlook) (d : Detector Empty Unit) : Outlook :=
  { s.withDetector d with dispatched := s.dispatched ++ s.lookout.detector.dispatching }

def attended (s : Outlook) : Outlook := { s with lookout := s.lookout.attend }

/-- The steps, in any order: a signal reaches the watch; the loop takes a
step, whatever it sees; somebody looks for the outcome. -/
inductive Step (s : Outlook) : Outlook → Prop where
  | signal : Step s (s.withDetector s.lookout.detector.signal)
  | loop {depth : Nat} {sight : Sight} {d : Detector Empty Unit}
      (h : s.lookout.detector.advance waitersOnly depth sight = some d) : Step s (s.advanced d)
  | attend : Step s s.attended

/-- A lookout whose detector has just started. -/
def started (path : String) (accepts : List Event → Event → Bool) : Outlook :=
  ⟨.start path accepts (.ok ()), []⟩

/-- What a lookout comes to whose detector starts. -/
inductive Reachable (path : String) (accepts : List Event → Event → Bool) : Outlook → Prop where
  | start : Reachable path accepts (started path accepts)
  | step {s s'} (h : Reachable path accepts s) (hstep : Step s s') : Reachable path accepts s'

/-- What it comes to, with the log and with whether an append is owed a
signal, if all that happens to the log is that it is appended to, or created
with its first bytes. Behind a signal no append is owed one. -/
inductive Tracks (path : String) (accepts : List Event → Event → Bool) :
    Outlook → Option (List UInt8) → Bool → Prop where
  | start (log : Option (List UInt8)) : Tracks path accepts (started path accepts) log false
  | append {s log owed} (h : Tracks path accepts s log owed) (added : List UInt8) :
      Tracks path accepts s (some (log.getD [] ++ added)) true
  | signal {s log owed} (h : Tracks path accepts s log owed)
      (hqueued : s.lookout.detector.signal.signals = s.lookout.detector.signals + 1) :
      Tracks path accepts (s.withDetector s.lookout.detector.signal) log false
  | loop {s log owed depth d} (h : Tracks path accepts s log owed)
      (hadvance : s.lookout.detector.advance waitersOnly depth (Sight.ofLog log) = some d) :
      Tracks path accepts (s.advanced d) log owed
  | attend {s log owed} (h : Tracks path accepts s log owed) :
      Tracks path accepts s.attended log owed

/-- Dispatches are all that happens to a detector that nobody else uses. -/
def OfDispatches (trace : List Happening) : Prop := ∀ h ∈ trace, h.IsCalm ∨ ∃ e, h = .began e

/-- Its wait, in a detector that is not started yet. -/
def wait (path : String) (accepts : List Event → Event → Bool) :
    Scene Empty Unit × ObserverId × Nat :=
  (Scene.ofPath path ()).waitFor waitersOnly accepts

/-- A lookout is watching, and its detector a scene in which nothing but
dispatches has happened since the wait began; or it has found the first
event that is accepted, and is closed. -/
inductive Standing (path : String) (accepts : List Event → Event → Bool) (s : Outlook) : Prop where
  | watching (houtcome : s.lookout.outcome = none)
      (hnumbers : (s.lookout.id, s.lookout.key) = (wait path accepts).2)
      (hwatching : s.lookout.detector.hub.world.watching = true) {trace : List Happening}
      (hrun : Scene.Run waitersOnly (wait path accepts).1 trace
        ⟨s.lookout.detector, none, [(wait path accepts).2]⟩)
      (htrace : OfDispatches trace) (hheard : heardIn false trace = s.dispatched)
  | found {e : Event} (houtcome : s.lookout.outcome = some (.ok e))
      (hfound : (listen accepts [] s.dispatched).2 = some e) (hclosed : s.lookout.detector.IsClosed)

variable {path : String} {accepts : List Event → Event → Bool} {s s' : Outlook}

theorem standing_started : Standing path accepts (started path accepts) := by
  refine .watching rfl rfl rfl (Scene.Run.single (.other _ rfl rfl rfl)) ?_ rfl
  exact fun h hin => .inl (.inl (List.mem_singleton.mp hin))

theorem OfDispatches.append {trace later : List Happening} (h : OfDispatches trace)
    (hlater : OfDispatches later) : OfDispatches (trace ++ later) := fun _ hin =>
  (List.mem_append.mp hin).elim (h _) (hlater _)

theorem OfDispatches.of_calm {trace : List Happening} (h : ∀ h ∈ trace, h.IsCalm) :
    OfDispatches trace := fun _ hin => .inl (h _ hin)

theorem OfDispatches.not_removed {trace : List Happening} (h : OfDispatches trace)
    (id : ObserverId) : .removed id ∉ trace := fun hin => by
  rcases h _ hin with (heq | ⟨_, _, heq⟩) | ⟨_, heq⟩ <;> cases heq

theorem OfDispatches.not_stops {trace : List Happening} (h : OfDispatches trace) :
    trace.any (·.stops) = false := by
  rw [List.any_eq_false]
  intro happening hin
  rcases h _ hin with (rfl | ⟨_, _, rfl⟩) | ⟨_, rfl⟩ <;> exact Bool.false_ne_true

theorem heardIn_calm {later : List Happening} (h : ∀ h ∈ later, h.IsCalm) (stopped : Bool) :
    heardIn stopped later = [] := by
  induction later generalizing stopped with
  | nil => rfl
  | cons first rest ih =>
    obtain ⟨hfirst, hrest⟩ := List.forall_mem_cons.mp h
    have hnone : first.heard stopped = [] := by
      rcases hfirst with rfl | ⟨_, _, rfl⟩ <;> rfl
    rw [heardIn, hnone, ih hrest, List.append_nil]

/-- One more dispatch is heard of. -/
theorem heardIn_dispatch {trace later : List Happening} (h : OfDispatches trace) (e : Event)
    (hlater : ∀ h ∈ later, h.IsCalm) :
    heardIn false (trace ++ .began e :: later) = heardIn false trace ++ [e] := by
  rw [heardIn_append, h.not_stops, heardIn, heardIn_calm hlater]
  rfl

/-- What its wait has come to, and that it is not stopped. -/
theorem awaited_wait {d : Detector Empty Unit} {trace : List Happening}
    (hrun : Scene.Run waitersOnly (wait path accepts).1 trace ⟨d, none, [(wait path accepts).2]⟩)
    (htrace : OfDispatches trace) :
    Scene.Awaited waitersOnly (wait path accepts).2.1 (wait path accepts).2.2 accepts
        ⟨d, none, [(wait path accepts).2]⟩ (heardIn false trace)
        (askedIn (wait path accepts).2.2 trace) ∧
      d.isStopped = false := by
  have hfirst : Scene.Run waitersOnly (Scene.ofPath path ()) [] (Scene.ofPath path ()) := .nil
  refine ⟨Scene.Run.awaits _ hfirst accepts hrun (htrace.not_removed _), ?_⟩
  exact (hrun.isStopped_eq _).trans (Bool.or_eq_false_iff.mpr ⟨rfl, htrace.not_stops⟩)

/-- A signal touches neither the registry nor the read loop. -/
theorem signal_frame (d : Detector Empty Unit) :
    d.signal.hub = d.hub ∧ d.signal.loop = d.loop := by
  unfold Detector.signal
  split <;> exact ⟨rfl, rfl⟩

/-- Nothing happens to the waiter. -/
theorem Standing.other {d : Detector Empty Unit} (h : Standing path accepts s)
    (hhub : d.hub = s.lookout.detector.hub) : Standing path accepts (s.withDetector d) := by
  cases h with
  | @watching houtcome hnumbers hwatching trace hrun htrace hheard =>
    have hquiet : ∀ h ∈ [Happening.quiet], h.IsCalm := fun h hin => .inl (List.mem_singleton.mp hin)
    refine .watching houtcome hnumbers (hhub ▸ hwatching) (hrun.snoc (.other d ?_ ?_ ?_))
      (htrace.append (.of_calm hquiet)) ?_
    · exact congrArg Hub.registry hhub
    · exact congrArg (·.world.post) hhub
    · exact congrArg (·.world.cancelled) hhub
    · rw [heardIn_append, heardIn_calm hquiet, List.append_nil]
      exact hheard
  | found houtcome hfound hclosed =>
    refine .found houtcome hfound ⟨?_, ?_, ?_, ?_⟩
    · exact (congrArg (·.world.cancelled) hhub).trans hclosed.stopped
    · exact (congrArg (·.world.watching) hhub).trans hclosed.watching
    · exact (congrArg (·.registry.idle) hhub).trans hclosed.idle
    · exact (congrArg (·.registry.inFlight) hhub).trans hclosed.inFlight

theorem Standing.loop (h : Standing path accepts s) {depth : Nat} {sight : Sight}
    {d : Detector Empty Unit}
    (hadvance : s.lookout.detector.advance waitersOnly depth sight = some d) :
    Standing path accepts (s.advanced d) := by
  rcases Detector.advance_cases hadvance with ⟨hnone, hhub⟩ | ⟨e, hone, hlive, hdispatch⟩
  · rw [advanced, hnone, List.append_nil]
    exact h.other hhub
  · rw [advanced, hone]
    cases h with
    | found _ _ hclosed => exact absurd (hlive.symm.trans hclosed.stopped) Bool.false_ne_true
    | @watching houtcome hnumbers hwatching trace hrun htrace hheard =>
      obtain ⟨later, hdispatched, hlater⟩ := exists_run_of_dispatch hdispatch
      have hmoved := (hrun.append hdispatched).snoc (.other d rfl rfl rfl)
      rw [List.append_assoc, List.cons_append] at hmoved
      have hcalm : ∀ h ∈ later ++ [.quiet], h.IsCalm := fun h hin =>
        (List.mem_append.mp hin).elim (hlater h) fun hin => .inl (List.mem_singleton.mp hin)
      refine .watching houtcome hnumbers ?_ hmoved ?_ ?_
      · exact (Detector.sameCourse_advance hadvance).2.trans hwatching
      · exact htrace.append (List.forall_mem_cons.mpr ⟨.inr ⟨e, rfl⟩, OfDispatches.of_calm hcalm⟩)
      · rw [heardIn_dispatch htrace e hcalm, hheard]

/-- No dispatch is running between any two steps. -/
theorem inFlight_wait {d : Detector Empty Unit} {trace : List Happening}
    (hrun : Scene.Run waitersOnly (wait path accepts).1 trace ⟨d, none, [(wait path accepts).2]⟩) :
    d.hub.registry.inFlight = [] := by
  have hfirst : Scene.Sound (wait path accepts).1 :=
    (Scene.Step.waitFor (b := waitersOnly) accepts).sound _ (Scene.sound_ofPath path ())
  exact (hrun.sound _ hfirst).inFlight

theorem attend_of_outcome {l : Lookout} {r : Except DetectError Event} (h : l.outcome = some r) :
    l.attend = l := by
  rw [Lookout.attend, h]

theorem Standing.attend (h : Standing path accepts s) : Standing path accepts s.attended := by
  cases h with
  | found houtcome hfound hclosed =>
    rw [attended, attend_of_outcome houtcome]
    exact .found houtcome hfound hclosed
  | @watching houtcome hnumbers hwatching trace hrun htrace hheard =>
    obtain ⟨hawaited, hlive⟩ := awaited_wait hrun htrace
    have hkey : s.lookout.key = (wait path accepts).2.2 := congrArg Prod.snd hnumbers
    have hkept := List.mem_singleton_self (wait path accepts).2
    cases hlook : s.lookout.detector.pollWait s.lookout.key with
    | mk d answer =>
      cases answer with
      | none =>
        have hsame : s.lookout.attend = s.lookout := by
          unfold Lookout.attend
          split
          · rfl
          · rw [hlook, Detector.pollWait_none hlook]
        rw [attended, hsame]
        exact .watching houtcome hnumbers hwatching hrun htrace hheard
      | some r =>
        have hattend : s.lookout.attend =
            { s.lookout with
              detector := (d.endWait waitersOnly s.lookout.id s.lookout.key).stop waitersOnly
              outcome := some r } := by
          simp only [Lookout.attend, houtcome, hlook]
        rw [attended, hattend]
        rcases hawaited.answer hkept r (hkey ▸ congrArg Prod.snd hlook) with
          ⟨e, hfound, rfl⟩ | ⟨-, hstopped, -⟩
        · refine .found rfl (hheard ▸ hfound) (Detector.isClosed_stop ?_)
          refine (Scene.removes_unsubscribe _ d.hub s.lookout.id).inFlight.trans ?_
          rw [(Detector.pollWait_frame hlook).2]
          exact inFlight_wait hrun
        · exact absurd (hlive.symm.trans hstopped) Bool.false_ne_true

theorem Reachable.standing (h : Reachable path accepts s) : Standing path accepts s := by
  induction h with
  | start => exact standing_started
  | step _ hstep ih =>
    cases hstep with
    | signal => exact ih.other (signal_frame _).1
    | loop hadvance => exact ih.loop hadvance
    | attend => exact ih.attend

theorem attend_outcome {l : Lookout} (h : l.outcome = none) :
    l.attend.outcome = (l.detector.pollWait l.key).2 := by
  unfold Lookout.attend
  rw [h]
  simp only
  split
  · next hlook => rw [hlook, ← h]
  · next hlook => rw [hlook]

/-- What a look finds, in the events that were dispatched. -/
theorem Standing.attend_outcome (h : Standing path accepts s)
    (houtcome : s.lookout.outcome = none) :
    s.lookout.attend.outcome = (listen accepts [] s.dispatched).2.map .ok := by
  cases h with
  | found hsome _ _ => cases houtcome.symm.trans hsome
  | @watching _ hnumbers hwatching trace hrun htrace hheard =>
    obtain ⟨hawaited, hlive⟩ := awaited_wait hrun htrace
    have hkey : s.lookout.key = (wait path accepts).2.2 := congrArg Prod.snd hnumbers
    have hkept := List.mem_singleton_self (wait path accepts).2
    rw [Outlook.attend_outcome houtcome, hkey, ← hheard]
    cases hfound : (listen accepts [] (heardIn false trace)).2 with
    | some e => exact hawaited.found hkept List.not_mem_nil e hfound
    | none => exact hawaited.pending hkept hfound (.inl hlive)

theorem Standing.isStopped_eq (h : Standing path accepts s) (houtcome : s.lookout.outcome = none) :
    s.lookout.detector.isStopped = false ∧ s.lookout.detector.hub.world.watching = true := by
  cases h with
  | found hsome _ _ => cases houtcome.symm.trans hsome
  | watching _ _ hwatching hrun htrace _ => exact ⟨(awaited_wait hrun htrace).2, hwatching⟩

/-- **A lookout finds the first event that is accepted**, of those that its
detector dispatches. -/
theorem Reachable.finds (h : Reachable path accepts s) :
    (∀ r, s.lookout.outcome = some r → s.lookout.detector.IsClosed ∧
      ∃ e, r = .ok e ∧ (listen accepts [] s.dispatched).2 = some e) ∧
    (s.lookout.outcome = none →
      s.lookout.attend.outcome = (listen accepts [] s.dispatched).2.map .ok) := by
  refine ⟨fun r hr => ?_, h.standing.attend_outcome⟩
  cases h.standing with
  | watching houtcome _ _ _ _ _ => cases houtcome.symm.trans hr
  | @found e houtcome hfound hclosed =>
    exact ⟨hclosed, e, Option.some.inj (hr.symm.trans houtcome), hfound⟩

variable {log : Option (List UInt8)} {owed : Bool}

theorem Tracks.reachable (h : Tracks path accepts s log owed) : Reachable path accepts s := by
  induction h with
  | start log => exact .start
  | append _ _ ih => exact ih
  | signal _ _ ih => exact ih.step .signal
  | loop _ hadvance ih => exact ih.step (.loop hadvance)
  | attend _ ih => exact ih.step .attend

theorem attend_detector (l : Lookout) :
    l.attend.detector = { l.detector with hub := l.attend.detector.hub } := by
  unfold Lookout.attend
  split
  · rfl
  · split
    · next hlook => exact (Detector.pollWait_frame hlook).1
    · next d _ hlook =>
      rw [(Detector.pollWait_frame hlook).1]
      rfl

/-- Its detector follows the log. -/
theorem Tracks.following (h : Tracks path accepts s log owed) :
    Following.Reachable waitersOnly ⟨s.lookout.detector, log, owed, s.dispatched⟩ := by
  induction h with
  | start log => exact .start (d := (wait path accepts).1.detector) rfl rfl
  | append _ added ih => exact ih.step (.append added)
  | signal _ hqueued ih => exact ih.step (.signal hqueued)
  | loop _ hadvance ih => exact ih.step (.loop hadvance)
  | @attend s log owed _ ih =>
    have hother := ih.step (.other s.lookout.attend.detector.hub)
    simp only at hother
    rw [← attend_detector] at hother
    exact hother

/-- As long as there is no outcome the read loop does not end. -/
theorem Tracks.running (h : Tracks path accepts s log owed) (houtcome : s.lookout.outcome = none) :
    ∃ l, s.lookout.detector.loop = some l ∧ l.phase ≠ .ended := by
  induction h with
  | start log => exact ⟨⟨Tail.start, .looking⟩, rfl, nofun⟩
  | append _ _ ih => exact ih houtcome
  | @signal s _ _ _ _ ih =>
    obtain ⟨l, hloop, hrunning⟩ := ih houtcome
    exact ⟨l, (signal_frame _).2.trans hloop, hrunning⟩
  | loop h hadvance ih =>
    obtain ⟨l, hloop, -⟩ := ih houtcome
    obtain ⟨l', hloop', hstep, -⟩ := Detector.advance_loopStep hloop hadvance
    rw [(h.reachable.standing.isStopped_eq houtcome).1] at hstep
    exact ⟨l', hloop', hstep.decreases.1⟩
  | @attend s _ _ _ ih =>
    have hbefore : s.lookout.outcome = none := by
      cases hsome : s.lookout.outcome with
      | none => rfl
      | some r => rwa [attended, attend_of_outcome hsome, hsome] at houtcome
    obtain ⟨l, hloop, hrunning⟩ := ih hbefore
    refine ⟨l, ?_, hrunning⟩
    exact (congrArg Detector.loop (attend_detector s.lookout)).trans hloop

/-- To let the loop run is to take its steps. -/
theorem Tracks.follow (h : Tracks path accepts s log owed) (depth fuel : Nat) :
    ∃ dispatched, Tracks path accepts
      ⟨s.lookout.follow depth (Sight.ofLog log) fuel, dispatched⟩ log owed := by
  induction fuel generalizing s with
  | zero => exact ⟨s.dispatched, h⟩
  | succ fuel ih =>
    cases hadvance : s.lookout.detector.advance waitersOnly depth (Sight.ofLog log) with
    | none =>
      refine ⟨s.dispatched, ?_⟩
      rw [Lookout.follow, Detector.runLoop, hadvance]
      exact h
    | some d =>
      obtain ⟨dispatched, hreachable⟩ := ih (.loop h hadvance)
      refine ⟨dispatched, ?_⟩
      rw [Lookout.follow, Detector.runLoop, hadvance]
      exact hreachable

/-- A lookout with the signal queued that may be owed to it. -/
def ready (s : Outlook) (owed : Bool) : Outlook :=
  if owed then s.withDetector s.lookout.detector.signal else s

theorem outcome_ready (s : Outlook) (owed : Bool) :
    (s.ready owed).lookout.outcome = s.lookout.outcome := by cases owed <;> rfl

theorem Tracks.ready (h : Tracks path accepts s log owed) (houtcome : s.lookout.outcome = none) :
    Tracks path accepts (s.ready owed) log false := by
  cases owed with
  | false => exact h
  | true =>
    obtain ⟨hlive, hwatching⟩ := h.reachable.standing.isStopped_eq houtcome
    refine .signal h ?_
    have hqueues :
        (s.lookout.detector.hub.world.watching && !s.lookout.detector.isStopped) = true :=
      Bool.and_eq_true_iff.mpr ⟨hwatching, congrArg not hlive⟩
    rw [Detector.signal, if_pos hqueues]

/-- The outcome, if there is one, is the first event in the log that is
accepted. If there is none, it is as soon as the loop has read the log. -/
theorem Tracks.finds_first (h : Tracks path accepts s log owed) :
    ∃ f : Framing UInt8, f.Valid byteMark ∧ f.symbols = log.getD [] ∧
      (∀ r, s.lookout.outcome = some r →
        ∃ e, r = .ok e ∧ (listen accepts [] (f.values.map classify)).2 = some e) ∧
      (s.lookout.outcome = none → ∀ depth, ∃ n, ∀ fuel,
        ((s.ready owed).lookout.follow (depth + 1) (Sight.ofLog log) (n + fuel)).attend.outcome =
          (listen accepts [] (f.values.map classify)).2.map .ok) := by
  obtain ⟨f, hf, hsymbols, -⟩ := exists_framing byteMark (log.getD [])
  have hvalues : f.values = (Stream.start.feed (log.getD [])).2 := by
    rw [← hsymbols, Stream.feed_framing hf]
  refine ⟨f, hf, hsymbols, fun r hr => ?_, fun houtcome depth => ?_⟩
  · obtain ⟨-, e, rfl, hfound⟩ := h.reachable.finds.1 r hr
    obtain ⟨later, hlater⟩ : s.dispatched <+: (Stream.start.feed (log.getD [])).2.map classify :=
      h.following.dispatched_isPrefix
    refine ⟨e, rfl, ?_⟩
    rw [hvalues, ← hlater, listen_of_some (by rw [hfound, Option.isSome_some]), hfound]
  · have hready := h.ready houtcome
    have houtcome' := (outcome_ready s owed).trans houtcome
    obtain ⟨l, hloop, hrunning⟩ := hready.running houtcome'
    obtain ⟨hlive, -⟩ := hready.reachable.standing.isStopped_eq houtcome'
    obtain ⟨n, d, tail, hparked, hsignals, hrun⟩ :=
      Detector.exists_parked depth log hloop hlive hrunning
    refine ⟨n, fun fuel => ?_⟩
    obtain ⟨dispatched, hfollowed⟩ := hready.follow (depth + 1) (n + fuel)
    have hdetector : ((s.ready owed).lookout.follow (depth + 1) (Sight.ofLog log)
        (n + fuel)).detector = d := hrun fuel
    have hall : dispatched = (Stream.start.feed (log.getD [])).2.map classify :=
      hfollowed.following.dispatched_parked ((congrArg Detector.loop hdetector).trans hparked)
        ((congrArg Detector.signals hdetector).trans hsignals) rfl
    rw [hvalues, ← hall]
    exact hfollowed.reachable.finds.2 houtcome'

theorem start_registry (d : Detector Empty Unit) (watch : Except WatchFault Unit) :
    (d.start watch).1.hub.registry = d.hub.registry := by
  unfold Detector.start
  split
  · rfl
  · split
    · rfl
    · cases watch <;> rfl

/-- A detector that does not start leaves nothing behind. -/
theorem start_error {watch : Except WatchFault Unit} {e : DetectError}
    (h : ((wait path accepts).1.detector.start watch).2 = .error e) :
    (Lookout.start path accepts watch).outcome = some (.error e) ∧
      (Lookout.start path accepts watch).detector.IsClosed := by
  have hidle : ((wait path accepts).1.detector.start watch).1.hub.registry.inFlight = [] :=
    congrArg Registry.inFlight (start_registry _ watch)
  cases hstart : (wait path accepts).1.detector.start watch with
  | mk d result =>
    rw [hstart] at h hidle
    obtain rfl : result = .error e := h
    have hsame : ((Detector.ofPath path ()).waitFor waitersOnly accepts).1.start watch =
        (d, .error e) := hstart
    have hlookout : Lookout.start path accepts watch =
        ⟨(d.stop waitersOnly).endWait waitersOnly (wait path accepts).2.1 (wait path accepts).2.2,
          (wait path accepts).2.1, (wait path accepts).2.2, some (.error e)⟩ := by
      simp only [Lookout.start, hsame]
      rfl
    rw [hlookout]
    exact ⟨rfl, (Detector.isClosed_stop hidle).endWait _ _⟩

end Outlook

/-! ## §4 First events -/

variable {κ υ : Type}

/-- **A wait finds the first event that it accepts and nothing else.** It may
begin at any moment and among any observers; a dispatch with observers that
use the detector as others do is one of the runs of which this speaks. A
lookout therefore comes to the first such event that its detector dispatches,
the first in a log that only grows, or to the error of the start, and leaves
nothing behind. -/
theorem wait_finds_first (custom : κ → Event → Reaction κ υ) (path : String)
    (accepts : List Event → Event → Bool) :
    (∀ user before s after s',
      Scene.Run (observerBehaviour custom) (Scene.ofPath path user) before s →
      let wait := s.waitFor (observerBehaviour custom) accepts
      Scene.Run (observerBehaviour custom) wait.1 after s' → .removed wait.2.1 ∉ after →
      Scene.Awaited (observerBehaviour custom) wait.2.1 wait.2.2 accepts s'
        (heardIn s.isStopped after) (askedIn wait.2.2 after)) ∧
    ((∀ o e, Orderly (custom o e)) → ∀ s : Scene κ υ, s.telling = none → ∀ depth e,
      ∃ hub trace futures,
        Hub.dispatch (observerBehaviour custom) (depth + 1) e s.detector.hub = some hub ∧
        Scene.Run (observerBehaviour custom) s (.began e :: trace)
          ⟨s.detector.withHub hub, none, futures⟩ ∧ ∀ e, .began e ∉ trace) ∧
    (∀ watch e, ((Outlook.wait path accepts).1.detector.start watch).2 = .error e →
      (Lookout.start path accepts watch).outcome = some (.error e) ∧
        (Lookout.start path accepts watch).detector.IsClosed) ∧
    (∀ s, Outlook.Reachable path accepts s →
      (∀ r, s.lookout.outcome = some r → s.lookout.detector.IsClosed ∧
        ∃ e, r = .ok e ∧ (listen accepts [] s.dispatched).2 = some e) ∧
      (s.lookout.outcome = none →
        s.lookout.attend.outcome = (listen accepts [] s.dispatched).2.map .ok)) ∧
    (∀ s log owed, Outlook.Tracks path accepts s log owed →
      ∃ f : Framing UInt8, f.Valid byteMark ∧ f.symbols = log.getD [] ∧
        (∀ r, s.lookout.outcome = some r →
          ∃ e, r = .ok e ∧ (listen accepts [] (f.values.map classify)).2 = some e) ∧
        (s.lookout.outcome = none → ∀ depth, ∃ n, ∀ fuel,
          ((s.ready owed).lookout.follow (depth + 1) (Sight.ofLog log) (n + fuel)).attend.outcome =
            (listen accepts [] (f.values.map classify)).2.map .ok)) := by
  refine ⟨?waits, ?dispatches, ?fails, ?finds, ?reads⟩
  case waits =>
    exact fun user before s after s' hbefore hafter hne => hbefore.awaits custom accepts hafter hne
  case dispatches =>
    intro horderly s htelling depth e
    obtain ⟨hub, trace, futures, hdispatch, hrun, hbegan, -⟩ :=
      Scene.exists_run_dispatch horderly htelling depth e
    exact ⟨hub, trace, futures, hdispatch, hrun, hbegan⟩
  case fails => exact fun watch e h => Outlook.start_error h
  case finds => exact fun s h => h.finds
  case reads => exact fun s log owed h => h.finds_first

/-- Observers that stop their detector. -/
def stopping : Unit → Event → Reaction Unit Unit := fun _ _ => Reaction.stop (.done (.custom ()))

/-- An observer stops the detector in the dispatch of an object; a waiter
behind it is asked all the same, finds the object behind the stop, and is
then gone. A lookout finds the object in a log, and fails with its watch. -/
theorem wait_finds_first_behind_stop :
    let e := classify (.object [])
    let b := observerBehaviour stopping
    let accepts := fun (_ : List Event) (_ : Event) => true
    (∃ s s' : Scene Unit Unit,
      Scene.Run b (Scene.ofPath "t.log" ()) [.quiet] s ∧
      Scene.Run b (s.waitFor b accepts).1 [.began e, .stopped, .quiet, .asked 0 e, .quiet] s' ∧
      s'.isStopped = true ∧ (s'.detector.pollWait 0).2 = some (.ok e) ∧
      ¬ (s'.poll b 1 0).Has 1) ∧
    (Lookout.start "t.log" accepts (.error ⟨"gone", []⟩)).outcome =
      some (.error (.watch (Outlook.wait "t.log" accepts).1.detector.directory ⟨"gone", []⟩)) ∧
    ∃ n, ∀ fuel,
      ((Lookout.start "t.log" accepts (.ok ())).follow 1 (.log [0x7B, 0x7D])
        (n + fuel)).attend.outcome = some (.ok e) := by
  intro e b accepts
  have hall := wait_finds_first stopping "t.log" accepts
  refine ⟨?stopped, ?fails, ?finds⟩
  case stopped =>
    let s : Scene Unit Unit := { Scene.ofPath "t.log" () with
      detector := ((Detector.ofPath "t.log" ()).subscribe (.custom ())).1 }
    let w := (s.waitFor b accepts).1
    have hbefore : Scene.Run b (Scene.ofPath "t.log" ()) [.quiet] s := .single (.subscribe ())
    have hstopped : Scene.Run b w [.began e, .stopped] ((w.opened e).stop b) :=
      (Scene.Run.single (.opens e rfl)).snoc .stop
    have htold := (hstopped.snoc (.tellsCustom () rfl)).snoc (.tellsWaiter rfl rfl)
    have hafter := htold.snoc (.closes rfl)
    have hfound := (hall.1 () _ s _ _ hbefore hafter (by simp)).found List.mem_cons_self
      List.not_mem_nil e rfl
    have hcompleted := (hall.1 () _ s _ _ hbefore hafter (by simp)).completes
      (Option.isSome_iff_exists.mpr ⟨_, hfound⟩)
    have hpolled := hafter.snoc (.poll List.mem_cons_self)
    exact ⟨s, _, hbefore, hafter, rfl, hfound,
      (hall.1 () _ s _ _ hbefore hpolled (by simp)).unregistered hcompleted⟩
  case fails => exact (hall.2.2.1 (.error ⟨"gone", []⟩) _ rfl).1
  case finds =>
    obtain ⟨f, hf, hsymbols, -, hfinds⟩ := hall.2.2.2.2 _ _ _ (.start (some [0x7B, 0x7D]))
    have hvalues : f.values = [.object []] := by
      have hfed : (Stream.start.feed f.symbols).2 = f.values := by rw [Stream.feed_framing hf]
      rw [← hfed, hsymbols]
      rfl
    obtain ⟨n, hfollowed⟩ := hfinds rfl 0
    rw [hvalues] at hfollowed
    exact ⟨n, hfollowed⟩

end Runwatch.Telemetry
