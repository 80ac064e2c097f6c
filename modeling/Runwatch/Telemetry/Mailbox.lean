/-
Runwatch.Telemetry.Mailbox — boxes that hold one event for one reader.

A box is opened with a sender and a reader. The sender delivers one event
or goes away; the reader takes the event once, or learns that none will
come. A box without a reader loses what is delivered to it.
-/
import Runwatch.Telemetry.Event

namespace Runwatch.Telemetry

/-- The state of a box. -/
inductive Box where
  /-- The sender may still deliver. -/
  | waiting
  /-- An event lies in the box. -/
  | delivered (e : Event)
  /-- Nothing will come any more. -/
  | closed
  deriving BEq, Repr

/-- What a reader finds in its box. -/
inductive Poll where
  | pending
  | fired (e : Event)
  | closed
  deriving BEq, Repr

/-- The boxes that have a reader, by number, and the next number. -/
structure Post where
  boxes : List (Nat × Box)
  next : Nat
  deriving BEq, Repr

namespace Post

/-- No boxes. -/
def empty : Post := ⟨[], 0⟩

/-- Changes one box. -/
def update (p : Post) (key : Nat) (f : Box → Box) : Post :=
  { p with boxes := p.boxes.map fun (k, b) => if k == key then (k, f b) else (k, b) }

/-- A new box, with its number. -/
def fresh (p : Post) : Post × Nat := (⟨p.boxes ++ [(p.next, .waiting)], p.next + 1⟩, p.next)

/-- Puts an event into a box that waits for one. -/
def deliver (p : Post) (key : Nat) (e : Event) : Post :=
  p.update key fun
    | .waiting => .delivered e
    | b => b

/-- The sender goes away. -/
def close (p : Post) (key : Nat) : Post :=
  p.update key fun
    | .waiting => .closed
    | b => b

/-- The reader goes away. -/
def abandon (p : Post) (key : Nat) : Post := { p with boxes := p.boxes.filter (·.1 != key) }

/-- The reader looks into its box and takes what lies there. -/
def poll (p : Post) (key : Nat) : Post × Poll :=
  match p.boxes.lookup key with
  | some .waiting => (p, .pending)
  | some (.delivered e) => (p.update key fun _ => .closed, .fired e)
  | some .closed => (p, .closed)
  | none => (p, .closed)

end Post

end Runwatch.Telemetry
