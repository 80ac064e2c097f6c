/-
Runwatch.Telemetry.Lookout — following a log up to one event.

A lookout has a detector for itself and waits for the first event that a
test accepts. It begins to wait before it starts the detector, so that
nothing in the log passes it by. When it knows its outcome, an event or why
the detector did not start, it stops the detector.
-/
import Runwatch.Telemetry.Detector

namespace Runwatch.Telemetry

/-- Observers of which none is custom. -/
def waitersOnly : Behaviour (Observer Empty) (Control Unit) := observerBehaviour fun o => nomatch o

/-- A detector with one waiter and its mailbox, and the outcome when there
is one. -/
structure Lookout where
  detector : Detector Empty Unit
  id : ObserverId
  key : Nat
  outcome : Option (Except DetectError Event)

namespace Lookout

/-- Waits for an event that `accepts` takes and starts to follow the log at
`path`; `watch` is how setting up the watch ended. -/
def start (path : String) (accepts : List Event → Event → Bool) (watch : Except WatchFault Unit) :
    Lookout :=
  let (d, id, key) := (Detector.ofPath path ()).waitFor waitersOnly accepts
  match d.start watch with
  | (d, .ok ()) => ⟨d, id, key, none⟩
  | (d, .error e) => ⟨(d.stop waitersOnly).endWait waitersOnly id key, id, key, some (.error e)⟩

/-- Looks for the event, unless there is an outcome. -/
def attend (l : Lookout) : Lookout :=
  match l.outcome with
  | some _ => l
  | none =>
    match l.detector.pollWait l.key with
    | (d, none) => { l with detector := d }
    | (d, some answer) =>
      { l with
        detector := (d.endWait waitersOnly l.id l.key).stop waitersOnly
        outcome := some answer }

/-- Lets the read loop run while the log looks like `sight`. -/
def follow (depth : Nat) (sight : Sight) (fuel : Nat) (l : Lookout) : Lookout :=
  { l with detector := l.detector.runLoop waitersOnly depth sight fuel }

end Lookout

end Runwatch.Telemetry
