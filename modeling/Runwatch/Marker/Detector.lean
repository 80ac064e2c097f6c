/-
Runwatch.Marker.Detector — waiting for a marker file.

A detector looks once whether the marker is there; if not, it watches the
directory and queues an arrival for each change that brings a file of that
name. Any number of waiters may wait: one of them holds the lock of the
queue, takes the arrival, resolves the detector and closes the watch.
Stopping closes the watch without resolving.

A wait is a sequence of small steps on the shared state, each of them
atomic, so that the steps of several waiters, arrivals and stops can be
put into any order. `poll` makes the steps of one wait until it parks.
-/
import Runwatch.Files.Tree
import Runwatch.Layout
import Runwatch.Telemetry.Error
import Runwatch.Telemetry.Watch

namespace Runwatch.Marker

open Telemetry (Change DetectError WatchFault)

/-- What the waiters of one marker share. -/
structure Detector where
  /-- The path of the marker. -/
  path : String
  /-- The name of the marker file. -/
  fileName : String
  resolved : Bool
  cancelled : Bool
  watching : Bool
  /-- The arrivals queued, as long as the queue is there. -/
  arrivals : Option Nat
  /-- Whether a waiter holds the lock of the queue. -/
  locked : Bool
  deriving DecidableEq, Repr

namespace Detector

/-- A detector whose marker is there. -/
def present (path fileName : String) : Detector := ⟨path, fileName, true, false, false, none, false⟩

/-- A detector that watches for its marker. -/
def waiting (path fileName : String) : Detector := ⟨path, fileName, false, false, true, some 0, false⟩

/-- Starts a detector for a task run's marker in a directory; `isThere` says
whether the marker is there, `watch` how setting up the watch ends. -/
def start (dir : String) (id : TaskRunId) (isThere : Bool) (watch : Except WatchFault Unit) :
    Except DetectError Detector :=
  let name := markerFileName id
  let path := Files.join dir name
  if isThere then .ok (present path name)
  else match watch with
    | .ok () => .ok (waiting path name)
    | .error fault => .error (.watch dir fault)

/-- A change in the directory is reported to the detector. -/
def notice (d : Detector) (c : Change) : Detector :=
  if d.watching && !d.cancelled && c.brings d.fileName then
    { d with arrivals := d.arrivals.map (· + 1) }
  else d

/-- Closes the watch. -/
def stop (d : Detector) : Detector := { d with cancelled := true, watching := false }

/-- A detector as a diagnostic shows it. -/
def describe (d : Detector) : String :=
  let word (b : Bool) : String := if b then "true" else "false"
  "MarkerDetector \x7b marker_path: " ++ Text.quoted d.path ++ ", resolved: " ++ word d.resolved
    ++ ", watching: " ++ word d.watching ++ " \x7d"

end Detector

/-- How a wait ends. -/
inductive Outcome where
  | resolved
  | stopped
  deriving DecidableEq, Repr

/-- Where a wait stands. -/
inductive Stage where
  /-- Is about to read whether the detector is resolved. -/
  | entered
  /-- Has read that it is not; is about to read whether it is cancelled. -/
  | unresolved
  /-- Is about to take the lock of the queue. -/
  | queueing
  /-- Holds the lock; is about to read again whether the detector is resolved. -/
  | holding
  /-- Holds the lock; is about to look at the queue. -/
  | looking
  /-- Holds the lock and waits for an arrival or the end. -/
  | selecting
  /-- Has an arrival; is about to resolve the detector. -/
  | accepting
  /-- Has resolved the detector; is about to cancel. -/
  | cancelling
  /-- Has cancelled; is about to close the watch. -/
  | closing
  /-- Has closed the watch; is about to drop the queue. -/
  | dropping
  /-- Is about to give the lock back, with this outcome. -/
  | leaving (outcome : Outcome)
  /-- Is over. -/
  | finished (outcome : Outcome)
  deriving DecidableEq, Repr

/-- One step of a wait; none if it is over or cannot go on now. -/
def Stage.step (d : Detector) : Stage → Option (Detector × Stage)
  | .entered => some (d, if d.resolved then .finished .resolved else .unresolved)
  | .unresolved => some (d, if d.cancelled then .finished .stopped else .queueing)
  | .queueing => if d.locked then none else some ({ d with locked := true }, .holding)
  | .holding => some (d, if d.resolved then .leaving .resolved else .looking)
  | .looking => some (d, if d.arrivals.isNone then .leaving .stopped else .selecting)
  | .selecting =>
    if d.cancelled then some (d, .leaving .stopped)
    else match d.arrivals with
      | none => some (d, .leaving .stopped)
      | some 0 => if d.watching then none else some (d, .leaving .stopped)
      | some (n + 1) => some ({ d with arrivals := some n }, .accepting)
  | .accepting => some ({ d with resolved := true }, .cancelling)
  | .cancelling => some ({ d with cancelled := true }, .closing)
  | .closing => some ({ d with watching := false }, .dropping)
  | .dropping => some ({ d with arrivals := none }, .leaving .resolved)
  | .leaving outcome => some ({ d with locked := false }, .finished outcome)
  | .finished _ => none

/-- The steps that a wait can make at most without parking. -/
def maxSteps : Nat := 12

/-- Makes the steps of one wait until it is over or parks. -/
def run : Nat → Detector → Stage → Detector × Stage
  | 0, d, s => (d, s)
  | fuel + 1, d, s =>
    match s.step d with
    | some (d, s) => run fuel d s
    | none => (d, s)

/-- Lets a wait run until it is over or parks. -/
def poll (d : Detector) (s : Stage) : Detector × Stage := run maxSteps d s

/-- Whether a wait at this stage holds the lock. -/
def Stage.holdsLock : Stage → Bool
  | .entered | .unresolved | .queueing | .finished _ => false
  | _ => true

/-- A wait is given up where it stands. -/
def giveUp (d : Detector) (s : Stage) : Detector :=
  if s.holdsLock then { d with locked := false } else d

/-- The outcome of a wait that is over. -/
def Stage.outcome? : Stage → Option Outcome
  | .finished outcome => some outcome
  | _ => none

end Runwatch.Marker
