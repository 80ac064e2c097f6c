/-
Runwatch.Telemetry.Span — cutting a stream into balanced spans.

A log holds objects back to back, with anything but an opening brace
between them. The scanner looks at braces, quotes and backslashes only: a
span begins with an opening brace and ends where the braces outside its
strings first balance. It is written for any alphabet that has these four
marks, so that it runs on bytes as well as on characters.
-/

namespace Runwatch.Telemetry

/-- What the scanner sees in one symbol. -/
inductive Mark where
  | opening
  | closing
  | quote
  | backslash
  | plain
  deriving DecidableEq, Repr

/-- The mark of a byte. -/
def byteMark (b : UInt8) : Mark :=
  if b == 0x7B then .opening
  else if b == 0x7D then .closing
  else if b == 0x22 then .quote
  else if b == 0x5C then .backslash
  else .plain

/-- The mark of a character. -/
def charMark (c : Char) : Mark :=
  if c == '\x7b' then .opening
  else if c == '\x7d' then .closing
  else if c == '"' then .quote
  else if c == '\\' then .backslash
  else .plain

/-- A scanner between two symbols: the symbols of the span it is in, last
first, its open braces, and whether it is in a string and behind a
backslash. -/
structure Scan (α : Type) where
  held : List α
  depth : Nat
  inString : Bool
  escaped : Bool
  deriving DecidableEq, Repr

namespace Scan

/-- A scanner outside any span. -/
def idle : Scan α := ⟨[], 0, false, false⟩

/-- The symbols of the span begun, in order. -/
def buffer (s : Scan α) : List α := s.held.reverse

/-- Whether no span is begun. -/
def isIdle (s : Scan α) : Bool := s.depth == 0 && s.held.isEmpty

/-- Takes one symbol; gives the span that it ends. -/
def step (mark : α → Mark) (s : Scan α) (a : α) : Scan α × Option (List α) :=
  let held := a :: s.held
  if s.inString then
    if s.escaped then ({ s with held := held, escaped := false }, none)
    else match mark a with
      | .backslash => ({ s with held := held, escaped := true }, none)
      | .quote => ({ s with held := held, inString := false }, none)
      | _ => ({ s with held := held }, none)
  else match mark a with
    | .opening => ({ s with held := held, depth := s.depth + 1 }, none)
    | .closing =>
      match s.depth with
      | 0 => (s, none)
      | 1 => ({ s with held := [], depth := 0 }, some held.reverse)
      | depth + 2 => ({ s with held := held, depth := depth + 1 }, none)
    | .quote => if s.depth == 0 then (s, none) else ({ s with held := held, inString := true }, none)
    | _ => if s.depth == 0 then (s, none) else ({ s with held := held }, none)

/-- Takes a list of symbols; `done` holds the spans that ended before, last
first. -/
def feedOnto (mark : α → Mark) (done : List (List α)) (s : Scan α) :
    List α → Scan α × List (List α)
  | [] => (s, done.reverse)
  | a :: rest =>
    match s.step mark a with
    | (s, some span) => feedOnto mark (span :: done) s rest
    | (s, none) => feedOnto mark done s rest

/-- Takes a list of symbols; gives the spans that it ends, in order. -/
def feed (mark : α → Mark) (s : Scan α) (symbols : List α) : Scan α × List (List α) :=
  s.feedOnto mark [] symbols

end Scan

end Runwatch.Telemetry
