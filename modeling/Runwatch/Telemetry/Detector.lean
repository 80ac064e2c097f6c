/-
Runwatch.Telemetry.Detector — following one log and telling observers.

A detector has a registry of observers, a watch on the log's directory and
a read loop. A change of the log queues a signal; the loop takes all
signals there are, looks whether the log exists, measures it, reads up to
that length, and dispatches the objects one by one. Each of these is one
step of `advance`, so that changes of the log can fall between any two.

Stopping cancels the detector, ends the watch and removes all observers. It
may come from outside or out of an observer. A waiter is an observer with a
mailbox; it is asked until it accepts an event, and delivers that one.
-/
import Runwatch.Telemetry.Error
import Runwatch.Telemetry.Mailbox
import Runwatch.Telemetry.Observers
import Runwatch.Telemetry.Tail

namespace Runwatch.Telemetry

open Json (Value)

/-- What the observers of a detector can reach: whether it is cancelled,
whether it has a watch, the mailboxes, and a world of their own. -/
structure Control (υ : Type) where
  cancelled : Bool
  watching : Bool
  post : Post
  user : υ

/-- An observer of a detector: a waiter with its mailbox, its test, the
events it has tested and whether it has delivered; or any other. The test
may depend on the events tested before. -/
inductive Observer (κ : Type) where
  | waiter (key : Nat) (accepts : List Event → Event → Bool) (asked : List Event) (fired : Bool)
  | custom (observer : κ)

/-- A script of a detector's observers. -/
abbrev Reaction (κ υ : Type) := Script (Observer κ) (Control υ)

/-- Cancels, and ends the watch. -/
def Control.cancel (c : Control υ) : Control υ := { c with cancelled := true, watching := false }

/-- An observer stops its detector and goes on. -/
def Reaction.stop (k : Reaction κ υ) : Reaction κ υ := .act Control.cancel fun _ => .clear k

/-- What a waiter does when told of an event. -/
def waiterReaction (key : Nat) (accepts : List Event → Event → Bool) (asked : List Event)
    (fired : Bool) (e : Event) : Reaction κ υ :=
  if fired then .done (.waiter key accepts asked fired)
  else if accepts asked e then
    .act (fun c => { c with post := c.post.deliver key e })
      fun _ => .done (.waiter key accepts (asked ++ [e]) true)
  else .done (.waiter key accepts (asked ++ [e]) false)

/-- The behaviour of a detector's observers, given that of the custom
ones. A waiter that is let go closes its mailbox. -/
def observerBehaviour (custom : κ → Event → Reaction κ υ) :
    Behaviour (Observer κ) (Control υ) where
  react
    | .waiter key accepts asked fired, e => waiterReaction key accepts asked fired e
    | .custom o, e => custom o e
  release
    | .waiter key _ _ _, c => { c with post := c.post.close key }
    | .custom _, c => c

/-! ## The read loop -/

/-- Where the read loop stands. -/
inductive Phase where
  /-- Waits for a signal. -/
  | parked
  /-- Has taken one signal and takes the others. -/
  | draining
  /-- Looks whether the log exists. -/
  | looking
  /-- Opens the log and measures it. -/
  | measuring
  /-- Reads up to the length that it measured. -/
  | reading (length : Nat)
  /-- Dispatches these objects. -/
  | delivering (values : List Value)
  | ended
  deriving BEq

/-- A read loop. -/
structure ReadLoop where
  tail : Tail
  phase : Phase

/-- A detector of one log. -/
structure Detector (κ υ : Type) where
  path : String
  started : Bool
  signals : Nat
  loop : Option ReadLoop
  hub : Hub (Observer κ) (Control υ)

namespace Detector

/-- A detector that is not started. -/
def ofPath (path : String) (user : υ) : Detector κ υ :=
  ⟨path, false, 0, none, Hub.ofWorld ⟨false, false, Post.empty, user⟩⟩

/-- The directory that holds the log. -/
def directory (d : Detector κ υ) : String :=
  match Files.parent? d.path with
  | some above => if above.isEmpty then "." else above
  | none => "."

/-- Whether the detector was stopped. -/
def isStopped (d : Detector κ υ) : Bool := d.hub.world.cancelled

/-- How many observers are subscribed. -/
def observerCount (d : Detector κ υ) : Nat := d.hub.registry.count

/-- Adds an observer. -/
def subscribe (d : Detector κ υ) (o : Observer κ) : Detector κ υ × ObserverId :=
  let (hub, id) := d.hub.subscribe o
  ({ d with hub := hub }, id)

/-- Removes an observer. -/
def unsubscribe (b : Behaviour (Observer κ) (Control υ)) (d : Detector κ υ) (id : ObserverId) :
    Detector κ υ × Bool :=
  let (hub, removed) := d.hub.unsubscribe b id
  ({ d with hub := hub }, removed)

/-- Starts the detector; `watch` is how setting up the watch ended. -/
def start (d : Detector κ υ) (watch : Except WatchFault Unit) :
    Detector κ υ × Except DetectError Unit :=
  if d.isStopped then (d, .error .stopped)
  else if d.started then (d, .error (.alreadyStarted d.path))
  else
    let d := { d with started := true }
    match watch with
    | .error fault => (d, .error (.watch d.directory fault))
    | .ok () =>
      ({ d with
          loop := some ⟨Tail.start, .looking⟩
          hub := { d.hub with world := { d.hub.world with watching := true } } },
        .ok ())

/-- Stops the detector. -/
def stop (b : Behaviour (Observer κ) (Control υ)) (d : Detector κ υ) : Detector κ υ :=
  { d with hub := Hub.clear b { d.hub with world := d.hub.world.cancel } }

/-- A change of the log reaches the watch. -/
def signal (d : Detector κ υ) : Detector κ υ :=
  if d.hub.world.watching && !d.isStopped then { d with signals := d.signals + 1 } else d

/-- Begins to wait for an event that `accepts` takes; gives the number of
the waiter and that of its mailbox. -/
def waitFor (b : Behaviour (Observer κ) (Control υ)) (d : Detector κ υ)
    (accepts : List Event → Event → Bool) : Detector κ υ × ObserverId × Nat :=
  let (post, key) := d.hub.world.post.fresh
  let d := { d with hub := { d.hub with world := { d.hub.world with post := post } } }
  let (d, id) := d.subscribe (.waiter key accepts [] false)
  let d := if d.isStopped then (d.unsubscribe b id).1 else d
  (d, id, key)

/-- Looks for the event of a waiter; a closed mailbox says that the
detector was stopped. -/
def pollWait (d : Detector κ υ) (key : Nat) : Detector κ υ × Option (Except DetectError Event) :=
  let (post, found) := d.hub.world.post.poll key
  let d := { d with hub := { d.hub with world := { d.hub.world with post := post } } }
  match found with
  | .pending => (d, none)
  | .fired e => (d, some (.ok e))
  | .closed => (d, some (.error .stopped))

/-- Ends a wait: the waiter is removed and its mailbox given up. -/
def endWait (b : Behaviour (Observer κ) (Control υ)) (d : Detector κ υ) (id : ObserverId)
    (key : Nat) : Detector κ υ :=
  let d := (d.unsubscribe b id).1
  { d with hub := { d.hub with world := { d.hub.world with post := d.hub.world.post.abandon key } } }

/-- One step of the read loop while the log looks like `sight`. None if the
loop cannot go on: it is not running, or it waits for a signal, or a
dispatch does not end within `depth`. -/
def advance (b : Behaviour (Observer κ) (Control υ)) (depth : Nat) (sight : Sight)
    (d : Detector κ υ) : Option (Detector κ υ) :=
  match d.loop with
  | none => none
  | some l =>
    let goTo (tail : Tail) (phase : Phase) : Detector κ υ := { d with loop := some ⟨tail, phase⟩ }
    match l.phase with
    | .ended => none
    | .parked =>
      if d.isStopped then some (goTo l.tail .ended)
      else if d.signals == 0 then none
      else some { goTo l.tail .draining with signals := d.signals - 1 }
    | .draining => some { goTo l.tail .looking with signals := 0 }
    | .looking =>
      match sight with
      | .missing => some (goTo l.tail .parked)
      | .closed _ => some (goTo l.tail .parked)
      | _ => some (goTo l.tail .measuring)
    | .measuring =>
      match sight with
      | .missing => some (goTo l.tail (.delivering []))
      | .closed _ => some (goTo l.tail .parked)
      | .log bytes => some (goTo (l.tail.measured bytes.length) (.reading bytes.length))
      | .unreadable length _ => some (goTo (l.tail.measured length) .parked)
    | .reading length =>
      match sight with
      | .log bytes =>
        let (tail, values) := l.tail.readTo length bytes
        some (goTo tail (.delivering values))
      | _ => some (goTo l.tail .parked)
    | .delivering [] => some (goTo l.tail .parked)
    | .delivering (v :: rest) =>
      if d.isStopped then some (goTo l.tail .ended)
      else do
        let hub ← Hub.dispatch b depth (classify v) d.hub
        pure { goTo l.tail (.delivering rest) with hub := hub }

/-- Lets the read loop run until it cannot go on; at most `fuel` steps. -/
def runLoop (b : Behaviour (Observer κ) (Control υ)) (depth : Nat) (sight : Sight) :
    Nat → Detector κ υ → Detector κ υ
  | 0, d => d
  | fuel + 1, d =>
    match d.advance b depth sight with
    | some d => runLoop b depth sight fuel d
    | none => d

/-- A detector as a diagnostic shows it. -/
def describe (d : Detector κ υ) : String :=
  "TelemetryDetector \x7b path: " ++ Text.quoted d.path ++ ", observers: "
    ++ Text.decimal d.observerCount ++ ", stopped: " ++ (if d.isStopped then "true" else "false")
    ++ " \x7d"

end Detector

end Runwatch.Telemetry
