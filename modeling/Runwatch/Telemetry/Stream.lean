/-
Runwatch.Telemetry.Stream — the objects of a byte stream.

Telemetry arrives in pieces that may end anywhere, inside a string or even
inside a character. A stream keeps what it has of an object that is not
complete. A span that is no JSON object is dropped, and reading goes on
behind it.
-/
import Runwatch.Json.Reader
import Runwatch.Telemetry.Span

namespace Runwatch.Telemetry

open Json (Value)

/-- A byte stream between two pieces. -/
abbrev Stream := Scan UInt8

namespace Stream

/-- A stream of which nothing is read. -/
def start : Stream := Scan.idle

/-- Takes a piece of the stream; gives the objects that it completes, in
order. -/
def feed (s : Stream) (piece : List UInt8) : Stream × List Value :=
  let (s, spans) := Scan.feed byteMark s piece
  (s, spans.filterMap Json.parseBytes?)

/-- Bytes in pieces of `size`, or in one piece if that is none; `fuel` bounds
their number. -/
def pieces (size : Nat) : Nat → List UInt8 → List (List UInt8)
  | 0, bytes => [bytes]
  | fuel + 1, bytes =>
    match size, bytes.drop size with
    | 0, _ => [bytes]
    | _, [] => [bytes]
    | size + 1, rest => bytes.take (size + 1) :: pieces (size + 1) fuel rest

/-- Takes pieces in order; gives all objects that they complete. -/
def feedAll (s : Stream) : List (List UInt8) → Stream × List Value
  | [] => (s, [])
  | piece :: rest =>
    let (s, values) := s.feed piece
    let (s, later) := feedAll s rest
    (s, values ++ later)

end Stream

end Runwatch.Telemetry
