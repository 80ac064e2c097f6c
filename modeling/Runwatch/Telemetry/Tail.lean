/-
Runwatch.Telemetry.Tail — reading a growing log piece by piece.

A tail remembers how many bytes it has read and what it holds of an object
that is not complete. Each read takes the bytes added since the last one. A
log that has become shorter is read again from its start. A read that fails
leaves the tail as it was, but for a log that was already seen to be
shorter.
-/
import Runwatch.Files.Tree
import Runwatch.Telemetry.Stream

namespace Runwatch.Telemetry

open Files (Fault)
open Json (Value)

/-- What a read finds where the log should be. -/
inductive Sight where
  /-- Nothing is there. -/
  | missing
  /-- It cannot be opened or measured. -/
  | closed (fault : Fault)
  /-- It can be measured and not read. -/
  | unreadable (length : Nat) (fault : Fault)
  /-- A log with these bytes. -/
  | log (bytes : List UInt8)

/-- The length that a directory shows. -/
def directoryLength : Nat := 4096

/-- What a read finds at a path of a tree. -/
def Sight.of (t : Files.Tree) (path : String) : Sight :=
  match t.find path with
  | .ok (.file bytes) => .log bytes
  | .ok (.dir _) => .unreadable directoryLength .isDirectory
  | .error (.system 2) => .missing
  | .error fault => .closed fault

/-- How far a log is read. -/
structure Tail where
  offset : Nat
  stream : Stream
  deriving DecidableEq, Repr

namespace Tail

/-- A tail at the start of a log. -/
def start : Tail := ⟨0, Stream.start⟩

/-- The tail after the log was seen with this length. -/
def measured (t : Tail) (length : Nat) : Tail := if length < t.offset then start else t

/-- Takes the bytes that follow the offset. -/
def take (t : Tail) (added : List UInt8) : Tail × List Value :=
  let (stream, values) := t.stream.feed added
  (⟨t.offset + added.length, stream⟩, values)

/-- Reads what was added, up to the length that was seen. -/
def readTo (t : Tail) (length : Nat) (bytes : List UInt8) : Tail × List Value :=
  t.take ((bytes.take length).drop t.offset)

/-- One read. -/
def read (t : Tail) : Sight → Tail × Except Fault (List Value)
  | .missing => (t, .ok [])
  | .closed fault => (t, .error fault)
  | .unreadable length fault =>
    let t := t.measured length
    if length == t.offset then (t, .ok []) else (t, .error fault)
  | .log bytes =>
    let t := t.measured bytes.length
    let (t, values) := t.readTo bytes.length bytes
    (t, .ok values)

end Tail

end Runwatch.Telemetry
