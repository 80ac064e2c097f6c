/-
Runwatch.Proofs.Telemetry.Following — a detector misses nothing.

A detector follows a log that others append to. Each append is owed a
signal; the loop takes signals together, looks, measures and reads, and
appends fall between any two of these. What makes it safe is that the loop
measures after it has taken the signals: whatever was appended before is
read, and whatever is appended later is owed a signal that is still to
come.

  §1 Loop      — all that one step of the loop can do (`LoopStep`,
                 `advance_loopStep`), and what it tells (`dispatching`).
  §2 Following — the detector with the log, the owed signal and the events
                 told so far; its steps, in any order.
  §3 Invariant — where the loop stands and what it has read and told
                 (`Told`, `CaughtUp`), kept by every step (`Step.inv`).

The main statement is `Reachable.misses_nothing`.
-/
import Runwatch.Proofs.Telemetry.Objects
import Runwatch.Proofs.Telemetry.Reading
import Runwatch.Telemetry.Detector

namespace Runwatch.Telemetry

open Json (Value)

variable {κ υ : Type}

/-! ## §1 Loop -/

/-- What a read finds of a log that is there or not. -/
def Sight.ofLog : Option (List UInt8) → Sight
  | some bytes => .log bytes
  | none => .missing

/-- The event that the next step of the loop tells the observers. -/
def Detector.dispatching (d : Detector κ υ) : List Event :=
  match d.loop with
  | some ⟨_, .delivering (v :: _)⟩ => if d.isStopped then [] else [classify v]
  | _ => []

/-- On the way from `d` to `d'` the registry is told of these events, one
after the other, and of nothing else. -/
def Detector.Dispatches (b : Behaviour (Observer κ) (Control υ)) (depth : Nat)
    (d d' : Detector κ υ) (events : List Event) : Prop :=
  events.foldlM (fun hub e => Hub.dispatch b depth e hub) d.hub = some d'.hub

/-- All that one step of the loop can do to where it stands and to the
signals queued, with the events that it tells. -/
inductive LoopStep (stopped : Bool) (log : Option (List UInt8)) :
    ReadLoop → Nat → ReadLoop → Nat → List Event → Prop where
  | stop {tail signals} (h : stopped = true) :
      LoopStep stopped log ⟨tail, .parked⟩ signals ⟨tail, .ended⟩ signals []
  | receive {tail signals} (h : stopped = false) :
      LoopStep stopped log ⟨tail, .parked⟩ (signals + 1) ⟨tail, .draining⟩ signals []
  | drain {tail signals} :
      LoopStep stopped log ⟨tail, .draining⟩ signals ⟨tail, .looking⟩ 0 []
  | absent {tail signals} (h : log = none) :
      LoopStep stopped log ⟨tail, .looking⟩ signals ⟨tail, .parked⟩ signals []
  | present {tail signals bytes} (h : log = some bytes) :
      LoopStep stopped log ⟨tail, .looking⟩ signals ⟨tail, .measuring⟩ signals []
  | vanished {tail signals} (h : log = none) :
      LoopStep stopped log ⟨tail, .measuring⟩ signals ⟨tail, .delivering []⟩ signals []
  | measure {tail signals bytes} (h : log = some bytes) :
      LoopStep stopped log ⟨tail, .measuring⟩ signals
        ⟨tail.measured bytes.length, .reading bytes.length⟩ signals []
  | unread {tail signals length} (h : log = none) :
      LoopStep stopped log ⟨tail, .reading length⟩ signals ⟨tail, .parked⟩ signals []
  | read {tail signals length bytes} (h : log = some bytes) :
      LoopStep stopped log ⟨tail, .reading length⟩ signals
        ⟨(tail.readTo length bytes).1, .delivering (tail.readTo length bytes).2⟩ signals []
  | park {tail signals} :
      LoopStep stopped log ⟨tail, .delivering []⟩ signals ⟨tail, .parked⟩ signals []
  | quit {tail signals v rest} (h : stopped = true) :
      LoopStep stopped log ⟨tail, .delivering (v :: rest)⟩ signals ⟨tail, .ended⟩ signals []
  | tell {tail signals v rest} (h : stopped = false) :
      LoopStep stopped log ⟨tail, .delivering (v :: rest)⟩ signals
        ⟨tail, .delivering rest⟩ signals [classify v]

/-- A step of the loop is one of these, and the hub behind it is the one
before, told of the events. -/
theorem Detector.advance_loopStep {b : Behaviour (Observer κ) (Control υ)} {depth : Nat}
    {log : Option (List UInt8)} {d d' : Detector κ υ} {l : ReadLoop} (hloop : d.loop = some l)
    (h : d.advance b depth (Sight.ofLog log) = some d') :
    ∃ l', d'.loop = some l' ∧
      LoopStep d.isStopped log l d.signals l' d'.signals d.dispatching ∧
      d.Dispatches b depth d' d.dispatching := by
  obtain ⟨tail, phase⟩ := l
  unfold Dispatches
  unfold advance at h
  simp only [hloop] at h
  -- Only a loop that delivers tells anything.
  have hquiet : (∀ values, phase ≠ .delivering values) → d.dispatching = [] := by
    intro hne
    cases phase <;> simp_all [dispatching]
  cases phase with
  | parked =>
    rw [hquiet (by simp)]
    simp only at h
    split at h
    · next hstop =>
      obtain rfl := Option.some.inj h
      exact ⟨_, rfl, .stop hstop, rfl⟩
    · next hstop =>
      split at h
      · cases h
      · next hsignals =>
        obtain ⟨n, hn⟩ := Nat.exists_eq_succ_of_ne_zero (by simpa using hsignals)
        obtain rfl := Option.some.inj h
        refine ⟨_, rfl, ?_, rfl⟩
        simp only [hn]
        exact .receive (by simpa using hstop)
  | draining =>
    rw [hquiet (by simp)]
    obtain rfl := Option.some.inj h
    exact ⟨_, rfl, .drain, rfl⟩
  | looking =>
    rw [hquiet (by simp)]
    cases log with
    | none => obtain rfl := Option.some.inj h; exact ⟨_, rfl, .absent rfl, rfl⟩
    | some bytes => obtain rfl := Option.some.inj h; exact ⟨_, rfl, .present rfl, rfl⟩
  | measuring =>
    rw [hquiet (by simp)]
    cases log with
    | none => obtain rfl := Option.some.inj h; exact ⟨_, rfl, .vanished rfl, rfl⟩
    | some bytes => obtain rfl := Option.some.inj h; exact ⟨_, rfl, .measure rfl, rfl⟩
  | reading length =>
    rw [hquiet (by simp)]
    cases log with
    | none => obtain rfl := Option.some.inj h; exact ⟨_, rfl, .unread rfl, rfl⟩
    | some bytes => obtain rfl := Option.some.inj h; exact ⟨_, rfl, .read rfl, rfl⟩
  | delivering values =>
    cases values with
    | nil =>
      have hnone : d.dispatching = [] := by simp [dispatching, hloop]
      rw [hnone]
      obtain rfl := Option.some.inj h
      exact ⟨_, rfl, .park, rfl⟩
    | cons v rest =>
      simp only at h
      split at h
      · next hstop =>
        have hnone : d.dispatching = [] := by simp [dispatching, hloop, hstop]
        rw [hnone]
        obtain rfl := Option.some.inj h
        exact ⟨_, rfl, .quit hstop, rfl⟩
      · next hstop =>
        have hone : d.dispatching = [classify v] := by simp [dispatching, hloop, hstop]
        rw [hone]
        obtain ⟨hub, hhub, hd⟩ := Option.bind_eq_some_iff.mp h
        obtain rfl := Option.some.inj hd
        exact ⟨_, rfl, .tell (by simpa using hstop), by simp [hhub]⟩
  | ended => cases h

/-- Whatever the loop sees, a step of it is the dispatch of an event, or
leaves the observers alone. -/
theorem Detector.advance_cases {b : Behaviour (Observer κ) (Control υ)} {depth : Nat}
    {sight : Sight} {d d' : Detector κ υ} (h : d.advance b depth sight = some d') :
    (d.dispatching = [] ∧ d'.hub = d.hub) ∨
      ∃ e, d.dispatching = [e] ∧ d.isStopped = false ∧
        Hub.dispatch b depth e d.hub = some d'.hub := by
  cases hloop : d.loop with
  | none => simp [advance, hloop] at h
  | some l =>
    obtain ⟨tail, phase⟩ := l
    unfold advance at h
    simp only [hloop] at h
    cases phase with
    | ended => cases h
    | delivering values =>
      cases values with
      | nil => exact .inl ⟨by simp [dispatching, hloop], by rw [← Option.some.inj h]⟩
      | cons v rest =>
        simp only at h
        split at h
        · next hstop =>
          exact .inl ⟨by simp [dispatching, hloop, hstop], by rw [← Option.some.inj h]⟩
        · next hlive =>
          obtain ⟨hub, hdispatch, heq⟩ := Option.bind_eq_some_iff.mp h
          obtain rfl := Option.some.inj heq
          exact .inr ⟨classify v, by simp [dispatching, hloop, hlive], by simpa using hlive,
            hdispatch⟩
    | parked =>
      refine .inl ⟨by simp [dispatching, hloop], ?_⟩
      simp only at h
      split at h
      · rw [← Option.some.inj h]
      · split at h
        · cases h
        · rw [← Option.some.inj h]
    | draining => exact .inl ⟨by simp [dispatching, hloop], by rw [← Option.some.inj h]⟩
    | looking | measuring | reading length =>
      refine .inl ⟨by simp [dispatching, hloop], ?_⟩
      cases sight <;> rw [← Option.some.inj h]

/-- A step of the loop leaves alone which log it is and whether it was
started. -/
theorem Detector.advance_frame {b : Behaviour (Observer κ) (Control υ)} {depth : Nat}
    {sight : Sight} {d d' : Detector κ υ} (h : d.advance b depth sight = some d') :
    d'.path = d.path ∧ d'.started = d.started := by
  cases hloop : d.loop with
  | none => simp [advance, hloop] at h
  | some l =>
    obtain ⟨tail, phase⟩ := l
    unfold advance at h
    simp only [hloop] at h
    cases phase with
    | delivering values =>
      cases values with
      | nil => rw [← Option.some.inj h]; exact ⟨rfl, rfl⟩
      | cons v rest =>
        simp only at h
        split at h
        · rw [← Option.some.inj h]; exact ⟨rfl, rfl⟩
        · obtain ⟨hub, -, heq⟩ := Option.bind_eq_some_iff.mp h
          rw [← Option.some.inj heq]
          exact ⟨rfl, rfl⟩
    | ended | parked | draining | looking | measuring | reading _ => grind

/-! ## §2 Following -/

/-- A detector with the log that it follows, whether an append is still
owed a signal, and the events dispatched so far, in order. -/
structure Following (κ υ : Type) where
  detector : Detector κ υ
  log : Option (List UInt8)
  owed : Bool
  dispatched : List Event

namespace Following

/-- The bytes in the log; none while it does not exist. -/
def bytes (s : Following κ υ) : List UInt8 := s.log.getD []

/-- The steps, in any order: the log is appended to, or created with its
first bytes; a signal is queued, behind which no append is owed one; the
loop takes a step; another task changes the registry or what its observers
reach. -/
inductive Step (b : Behaviour (Observer κ) (Control υ)) :
    Following κ υ → Following κ υ → Prop where
  | append {s} (added : List UInt8) :
      Step b s { s with log := some (s.bytes ++ added), owed := true }
  | signal {s} (hqueued : s.detector.signal.signals = s.detector.signals + 1) :
      Step b s { s with detector := s.detector.signal, owed := false }
  | loop {s} {depth : Nat} {d : Detector κ υ}
      (h : s.detector.advance b depth (Sight.ofLog s.log) = some d) :
      Step b s { s with detector := d, dispatched := s.dispatched ++ s.detector.dispatching }
  | other {s} (hub : Hub (Observer κ) (Control υ)) :
      Step b s { s with detector := { s.detector with hub := hub } }

/-- The states that a started detector comes to, whatever is in the log
when it is started. -/
inductive Reachable (b : Behaviour (Observer κ) (Control υ)) : Following κ υ → Prop where
  | start {d : Detector κ υ} {log : Option (List UInt8)} (hnew : d.started = false)
      (hlive : d.isStopped = false) : Reachable b ⟨(d.start (.ok ())).1, log, false, []⟩
  | step {s s' : Following κ υ} (h : Reachable b s) (hstep : Step b s s') : Reachable b s'

/-! ## §3 Invariant -/

/-- Something is still to come that makes the loop read: a signal in the
queue, or one that is owed. -/
def Wakes (signals : Nat) (owed : Bool) : Prop := signals ≠ 0 ∨ owed = true

/-- What is told, where the loop stands at `phase` and has read `objects`:
all of them, less those that it still holds. A loop that has ended may have
left some untold. -/
def Told (dispatched : List Event) (objects : List Value) : Phase → Prop
  | .ended => dispatched <+: objects.map classify
  | .delivering values => dispatched ++ values.map classify = objects.map classify
  | _ => dispatched = objects.map classify

/-- What is read, where the loop stands at `phase`: before it measures, it
does not matter; behind that, all bytes, unless something wakes it again. -/
def CaughtUp (content bytes : List UInt8) (wakes : Prop) : Phase → Prop
  | .parked => content = bytes ∨ wakes
  | .delivering _ => content = bytes ∨ wakes
  | .reading length =>
    content.length ≤ length ∧ length ≤ bytes.length ∧ (length = bytes.length ∨ wakes)
  | _ => True

/-- The invariant: the loop has read a beginning of the bytes, has told
what it read, and is caught up. -/
structure Keeps (bytes : List UInt8) (signals : Nat) (owed : Bool) (dispatched : List Event)
    (l : ReadLoop) (content : List UInt8) (objects : List Value) : Prop where
  read : l.tail.HasRead content objects
  begins : content <+: bytes
  told : Told dispatched objects l.phase
  caughtUp : CaughtUp content bytes (Wakes signals owed) l.phase

/-- A detector that keeps up with its log. -/
def Inv (s : Following κ υ) : Prop :=
  ∃ l content objects, s.detector.loop = some l ∧
    Keeps s.bytes s.detector.signals s.owed s.dispatched l content objects

/-- A loop that is woken still is when more is appended or queued. -/
theorem Keeps.wake {bytes bytes' : List UInt8} {signals signals' : Nat} {owed owed' : Bool}
    {dispatched : List Event} {l : ReadLoop} {content : List UInt8} {objects : List Value}
    (h : Keeps bytes signals owed dispatched l content objects) (hlog : bytes <+: bytes')
    (hwakes : Wakes signals' owed') : Keeps bytes' signals' owed' dispatched l content objects where
  read := h.read
  begins := h.begins.trans hlog
  told := h.told
  caughtUp := by
    have hcaught := h.caughtUp
    cases hphase : l.phase with
    | parked => exact .inr hwakes
    | delivering values => exact .inr hwakes
    | reading length =>
      rw [hphase] at hcaught
      exact ⟨hcaught.1, hcaught.2.1.trans hlog.length_le, .inr hwakes⟩
    | draining | looking | measuring | ended => trivial

/-- A step of the loop keeps the invariant. -/
theorem Keeps.loopStep {stopped owed : Bool} {log : Option (List UInt8)} {l l' : ReadLoop}
    {signals signals' : Nat} {dispatched events : List Event} {content : List UInt8}
    {objects : List Value} (h : Keeps (log.getD []) signals owed dispatched l content objects)
    (hstep : LoopStep stopped log l signals l' signals' events) :
    ∃ content' objects',
      Keeps (log.getD []) signals' owed (dispatched ++ events) l' content' objects' := by
  obtain ⟨hread, hbegins, htold, hcaught⟩ := h
  cases hstep with
  | stop hstop =>
    refine ⟨content, objects, hread, hbegins, ?_, trivial⟩
    rw [List.append_nil]
    exact htold ▸ List.prefix_refl _
  | receive hlive =>
    exact ⟨content, objects, hread, hbegins, by simpa [Told] using htold, trivial⟩
  | drain => exact ⟨content, objects, hread, hbegins, by simpa [Told] using htold, trivial⟩
  | absent hlog =>
    subst hlog
    have hnil : content = [] := List.prefix_nil.mp hbegins
    exact ⟨content, objects, hread, hbegins, by simpa [Told] using htold, .inl hnil⟩
  | present hlog => exact ⟨content, objects, hread, hbegins, by simpa [Told] using htold, trivial⟩
  | vanished hlog =>
    subst hlog
    have hnil : content = [] := List.prefix_nil.mp hbegins
    exact ⟨content, objects, hread, hbegins, by simpa [Told] using htold, .inl hnil⟩
  | @measure tail signals bytes hlog =>
    subst hlog
    -- The log is no shorter than what was read, so the tail stays.
    have hlength : content.length ≤ bytes.length := hbegins.length_le
    have hsame : tail.measured bytes.length = tail := by
      rw [Tail.measured, hread.offset, if_neg (by simpa using hlength)]
    rw [hsame]
    exact ⟨content, objects, hread, hbegins, by simpa [Told] using htold,
      hlength, Nat.le_refl _, .inl rfl⟩
  | unread hlog =>
    subst hlog
    have hnil : content = [] := List.prefix_nil.mp hbegins
    exact ⟨content, objects, hread, hbegins, by simpa [Told] using htold, .inl hnil⟩
  | @read tail signals length bytes hlog =>
    subst hlog
    obtain ⟨hfrom, hupto, hrest⟩ := hcaught
    -- Only the bytes up to the length measured are read; if there are more
    -- by now, they wake the loop again.
    have hextends : content <+: bytes.take length :=
      List.prefix_take_iff.mpr ⟨hbegins, hfrom⟩
    refine ⟨bytes.take length, _, hread.readTo hextends, List.take_prefix _ _, ?_, ?_⟩
    · simp only [Told] at htold ⊢
      simp [htold]
    · exact hrest.imp_left fun hall => by rw [hall]; exact List.take_length
  | park => exact ⟨content, objects, hread, hbegins, by simpa [Told] using htold, hcaught⟩
  | quit hstop =>
    refine ⟨content, objects, hread, hbegins, ?_, trivial⟩
    rw [List.append_nil]
    exact ⟨_, htold⟩
  | tell hlive => exact ⟨content, objects, hread, hbegins, by simpa [Told] using htold, hcaught⟩

/-- Every step keeps the invariant: an append is owed a signal, a signal
stands in the queue, and the loop reads all that it measures. -/
theorem Step.inv {b : Behaviour (Observer κ) (Control υ)} {s s' : Following κ υ}
    (hstep : Step b s s') (h : Inv s) : Inv s' := by
  obtain ⟨l, content, objects, hloop, hkeeps⟩ := h
  cases hstep with
  | append added =>
    exact ⟨l, content, objects, hloop, hkeeps.wake (List.prefix_append _ _) (.inr rfl)⟩
  | signal hqueued =>
    have hsame : s.detector.signal.loop = s.detector.loop := by
      rw [Detector.signal]
      split <;> rfl
    exact ⟨l, content, objects, hsame.trans hloop,
      hkeeps.wake (List.prefix_refl _) (.inl (hqueued ▸ Nat.succ_ne_zero _))⟩
  | loop h =>
    obtain ⟨l', hloop', hloopStep, -⟩ := Detector.advance_loopStep hloop h
    obtain ⟨content', objects', hkeeps'⟩ := hkeeps.loopStep hloopStep
    exact ⟨l', content', objects', hloop', hkeeps'⟩
  | other hub => exact ⟨l, content, objects, hloop, hkeeps⟩

theorem Reachable.inv {b : Behaviour (Observer κ) (Control υ)} {s : Following κ υ}
    (h : Reachable b s) : Inv s := by
  induction h with
  | @start d log hnew hlive =>
    refine ⟨⟨Tail.start, .looking⟩, [], [], ?_, .start, List.nil_prefix, rfl, trivial⟩
    simp [Detector.start, hnew, hlive]
  | step _ hstep ih => exact hstep.inv ih

/-- What is told are the events of a beginning of what is read. -/
theorem Told.isPrefix {dispatched : List Event} {objects : List Value} {phase : Phase}
    (h : Told dispatched objects phase) : dispatched <+: objects.map classify := by
  cases phase with
  | ended => exact h
  | delivering values => exact ⟨_, h⟩
  | parked | draining | looking | measuring | reading length =>
    simp only [Told] at h
    exact h ▸ List.prefix_refl _

/-- A detector that keeps up dispatches the first events of its log. -/
theorem Inv.dispatched_isPrefix {s : Following κ υ} (h : Inv s) :
    s.dispatched <+: (Stream.start.feed s.bytes).2.map classify := by
  obtain ⟨l, content, objects, -, hread, ⟨later, hlater⟩, htold, -⟩ := h
  rw [← hlater, Stream.feed_append, hread.stream, List.map_append]
  exact (Told.isPrefix htold).trans (List.prefix_append _ _)

/-- **No wake-up and no event is lost.** The events dispatched so far are
those of a beginning of the objects in the log, in order, and a step of the
loop dispatches just those that it adds to them. Whenever the loop waits, no
signal is queued and no append is owed one, all bytes are read and the events
are those of all its objects. -/
theorem Reachable.misses_nothing {b : Behaviour (Observer κ) (Control υ)} {s : Following κ υ}
    (h : Reachable b s) :
    (∀ depth d, s.detector.advance b depth (Sight.ofLog s.log) = some d →
      s.detector.Dispatches b depth d s.detector.dispatching) ∧
    ∃ f : Framing UInt8, f.Valid byteMark ∧ f.symbols = s.bytes ∧
      (∃ told, told <+: f.values ∧ s.dispatched = told.map classify) ∧
      (∀ tail, s.detector.loop = some ⟨tail, .parked⟩ → s.detector.signals = 0 → s.owed = false →
        tail.offset = s.bytes.length ∧ s.dispatched = f.values.map classify) := by
  obtain ⟨l, content, objects, hloop, hread, hbegins, htold, hcaught⟩ := h.inv
  obtain ⟨f, hf, hsymbols, -⟩ := exists_framing byteMark s.bytes
  have hvalues : (Stream.start.feed s.bytes).2 = f.values := by
    rw [← hsymbols, Stream.feed_framing hf]
  refine ⟨?dispatches, f, hf, hsymbols, ?initial, ?parked⟩
  case dispatches =>
    intro depth d hadvance
    obtain ⟨-, -, -, hdispatches⟩ := Detector.advance_loopStep hloop hadvance
    exact hdispatches
  case initial =>
    have hobjects : objects <+: f.values := by
      obtain ⟨later, hlater⟩ := hbegins
      rw [← hvalues, ← hlater, Stream.feed_append, hread.stream]
      exact List.prefix_append _ _
    obtain ⟨told, hpart, heq⟩ := List.prefix_map_iff.mp (Told.isPrefix htold)
    exact ⟨told, hpart.trans hobjects, heq⟩
  case parked =>
    intro tail hparked hsignals howed
    obtain rfl : l = ⟨tail, .parked⟩ := Option.some.inj (hloop.symm.trans hparked)
    have hall : content = s.bytes := by
      cases hcaught with
      | inl hall => exact hall
      | inr hwakes => simp [Wakes, hsignals, howed] at hwakes
    have hobjects : objects = f.values := by
      rw [← hvalues, ← hall, hread.stream]
    exact ⟨hall ▸ hread.offset, hobjects ▸ htold⟩

/-- Waiters only, no observer of another kind. -/
def waiters : Behaviour (Observer Empty) (Control Unit) := observerBehaviour fun o => nomatch o

/-- A detector that is started before there is a log. -/
def awaiting : Detector Empty Unit := ((Detector.ofPath "t.log" ()).start (.ok ())).1

/-- The same behind two objects, waiting for more. -/
def twoTold : Following Empty Unit where
  detector := { awaiting with loop := some ⟨⟨4, Stream.start⟩, .parked⟩ }
  log := some [0x7B, 0x7D, 0x7B, 0x7D]
  owed := false
  dispatched := [classify (.object []), classify (.object [])]

/-- The log is created while the detector looks for it, and grows between
the measuring and the reading; the signal owed comes behind that and makes
the loop read once more. -/
theorem Reachable.twoTold_misses_nothing :
    Reachable waiters twoTold ∧
      ∃ f : Framing UInt8, f.Valid byteMark ∧ f.symbols = [0x7B, 0x7D, 0x7B, 0x7D] ∧
        twoTold.dispatched = f.values.map classify := by
  have hstart : Reachable waiters ⟨awaiting, none, false, []⟩ := .start rfl rfl
  have hmeasured := ((hstart.step (.append [0x7B, 0x7D, 0x7B])).step
    (@Step.loop _ _ _ _ 1 _ rfl)).step (@Step.loop _ _ _ _ 1 _ rfl)
  have hread := (hmeasured.step (.append [0x7D])).step (@Step.loop _ _ _ _ 1 _ rfl)
  have htold := (hread.step (@Step.loop _ _ _ _ 1 _ rfl)).step (@Step.loop _ _ _ _ 1 _ rfl)
  have hwoken := (htold.step (.signal rfl)).step (@Step.loop _ _ _ _ 1 _ rfl)
  have hmeasured' := ((hwoken.step (@Step.loop _ _ _ _ 1 _ rfl)).step
    (@Step.loop _ _ _ _ 1 _ rfl)).step (@Step.loop _ _ _ _ 1 _ rfl)
  have hread' := hmeasured'.step (@Step.loop _ _ _ _ 1 _ rfl)
  have htold' := (hread'.step (@Step.loop _ _ _ _ 1 _ rfl)).step (@Step.loop _ _ _ _ 1 _ rfl)
  have hreachable : Reachable waiters twoTold := htold'
  obtain ⟨-, f, hf, hsymbols, -, hparked⟩ := Reachable.misses_nothing hreachable
  exact ⟨hreachable, f, hf, hsymbols, (hparked ⟨4, Stream.start⟩ rfl rfl rfl).2⟩

end Following

end Runwatch.Telemetry
