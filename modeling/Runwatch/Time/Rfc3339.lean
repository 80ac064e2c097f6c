/-
Runwatch.Time.Rfc3339 — reading dates and times.

Two readers share the parts of the format. `parseStrict` takes every field
at its fixed place, as stored texts are written. `parseRelaxed` also takes
short fields, signed years and blanks around the fields, as texts from
other programs come. Both want an offset from universal time and give the
instant.
-/
import Runwatch.Text.Blank
import Runwatch.Text.Utf8
import Runwatch.Time.Instant

namespace Runwatch.Time

/-- Why a text is not a date and time. -/
inductive TimeError where
  | outOfRange
  | impossible
  | invalid
  | tooShort
  | tooLong
  deriving DecidableEq, Repr

/-- The wording of a `TimeError`. -/
def TimeError.message : TimeError → String
  | .outOfRange => "input is out of range"
  | .impossible => "no possible date and time matching input"
  | .invalid => "input contains invalid characters"
  | .tooShort => "premature end of input"
  | .tooLong => "trailing input"

open Text (isBlank isDigit digitValue)

/-- The number of bytes of a text. -/
def byteLength (cs : List Char) : Nat := (Text.Utf8.encode cs).length

/-- The first natural number beyond the signed words of 64 bits. -/
abbrev readLimit : Nat := 9223372036854775808

/-- Reads a run of at least one and at most `width` digits, for a number
below `readLimit`. -/
def readDigits (width : Nat) (cs : List Char) : Except TimeError (Nat × List Char) :=
  let digits := (cs.take width).takeWhile isDigit
  if cs.isEmpty then .error .tooShort
  else if digits.isEmpty then .error .invalid
  else
    let n := Text.natOfDigits 0 digits
    if n < readLimit then .ok (n, cs.drop digits.length) else .error .outOfRange

/-- Reads the digits of a fraction of a second; only the first nine count. -/
def readFraction (cs : List Char) : Except TimeError (Nat × List Char) := do
  let (n, rest) ← readDigits 9 cs
  let taken := ((cs.take 9).takeWhile isDigit).length
  pure (n * Nat.pow 10 (9 - taken), rest.dropWhile isDigit)

/-- The two digits that must come next. Bytes are counted, so that one
character of two bytes is a wrong digit and not a missing one. -/
def twoDigits (cs : List Char) : Except TimeError (Nat × Nat) :=
  match cs with
  | a :: b :: _ => if isDigit a && isDigit b then .ok (digitValue a, digitValue b) else .error .invalid
  | cs => if byteLength cs < 2 then .error .tooShort else .error .invalid

/-- Reads an offset from universal time in seconds. `separator` takes what
stands between hours and minutes. -/
def readOffset (separator : List Char → Except TimeError (List Char)) (cs : List Char) :
    Except TimeError (Int × List Char) := do
  let (negative, cs) ← match cs with
    | '+' :: rest => pure (false, rest)
    | '-' :: rest => pure (true, rest)
    | '−' :: rest => pure (true, rest)
    | _ :: _ => .error .invalid
    | [] => .error .tooShort
  let (h1, h2) ← twoDigits cs
  let cs ← separator (cs.drop 2)
  if byteLength cs < 2 then .error .tooShort
  else
    let (m1, m2) ← twoDigits cs
    if m1 ≥ 6 then .error .outOfRange
    else
      let seconds : Int := ((h1 * 10 + h2) * 3600 + (m1 * 10 + m2) * 60 : Nat)
      pure (if negative then -seconds else seconds, cs.drop 2)

/-- The instant of a local date and time at an offset. -/
def assemble (date : Date) (hour minute second nanos : Nat) (offset : Int) :
    Except TimeError Instant :=
  if offset.natAbs ≥ 86400 then .error .outOfRange
  else
    let secs := days date * 86400 + ((hour * 3600 + minute * 60 + second : Nat) : Int) - offset
    let t : Instant := ⟨secs, nanos⟩
    if t.inRange then .ok t else .error .impossible

/-! ## Fixed places -/

/-- The digit at place `i`. -/
def digitAt (cs : List Char) (i : Nat) : Except TimeError Nat :=
  match cs[i]? with
  | some c => if isDigit c then .ok (digitValue c) else .error .invalid
  | none => .error .invalid

/-- The number in the two places from `i`. -/
def pairAt (cs : List Char) (i : Nat) : Except TimeError Nat := do
  let a ← digitAt cs i
  let b ← digitAt cs (i + 1)
  pure (10 * a + b)

/-- Refuses a text unless `accepted` holds of its character at place `i`. -/
def expectAt (cs : List Char) (i : Nat) (accepted : Char → Bool) : Except TimeError Unit :=
  match cs[i]? with
  | some c => if accepted c then .ok () else .error .invalid
  | none => .error .invalid

/-- Reads a date and time with every field at its fixed place. -/
def parseStrict (text : String) : Except TimeError Instant := do
  let cs := text.toList
  if byteLength cs < 19 then .error .tooShort
  else
    let century ← pairAt cs 0
    let year ← pairAt cs 2
    expectAt cs 4 (· == '-')
    let month ← pairAt cs 5
    expectAt cs 7 (· == '-')
    let day ← pairAt cs 8
    match date? ((100 * century + year : Nat) : Int) month day with
    | none => .error .outOfRange
    | some date =>
      expectAt cs 10 (fun c => c == 'T' || c == 't' || c == ' ')
      let hour ← pairAt cs 11
      expectAt cs 13 (· == ':')
      let minute ← pairAt cs 14
      expectAt cs 16 (· == ':')
      let second ← pairAt cs 17
      let (second, leap) := if second == 60 then (59, 1000000000) else (second, 0)
      let (fraction, rest) ← match cs.drop 19 with
        | '.' :: rest => readFraction rest
        | rest => .ok (0, rest)
      if hour ≥ 24 || minute ≥ 60 || second ≥ 60 then .error .outOfRange
      else
        let (offset, rest) ← match rest with
          | 'Z' :: rest => .ok (0, rest)
          | 'z' :: rest => .ok (0, rest)
          | rest => readOffset (fun
              | ':' :: rest => .ok rest
              | [] => .error .tooShort
              | _ => .error .invalid) rest
        if !rest.isEmpty then .error .tooLong
        else assemble date hour minute second (leap + fraction) offset

/-! ## Free places -/

/-- Reads a number of at most `width` digits after blanks, between `low` and
`high`. -/
def readField (width low high : Nat) (cs : List Char) : Except TimeError (Nat × List Char) := do
  let (n, rest) ← readDigits width (Text.trimLeft cs)
  if low ≤ n && n ≤ high then pure (n, rest) else .error .outOfRange

/-- Reads a year after blanks: four digits, or any number with a sign. -/
def readYear (cs : List Char) : Except TimeError (Int × List Char) := do
  let checked (y : Int) (rest : List Char) : Except TimeError (Int × List Char) :=
    if -2147483648 ≤ y && y ≤ 2147483647 then .ok (y, rest) else .error .outOfRange
  match Text.trimLeft cs with
  | '-' :: rest => do
    let (n, rest) ← readDigits rest.length rest
    checked (-(n : Int)) rest
  | '+' :: rest => do
    let (n, rest) ← readDigits rest.length rest
    checked n rest
  | rest => do
    let (n, rest) ← readDigits 4 rest
    checked n rest

/-- Takes a mark after blanks. -/
def readMark (mark : Char) (cs : List Char) : Except TimeError (List Char) :=
  match Text.trimLeft cs with
  | [] => .error .tooShort
  | c :: rest => if c == mark then .ok rest else .error .invalid

/-- Reads a date and time whose fields may be short and stand between
blanks. -/
def parseRelaxed (text : String) : Except TimeError Instant := do
  let (year, cs) ← readYear text.toList
  let cs ← readMark '-' cs
  let (month, cs) ← readField 2 1 12 cs
  let cs ← readMark '-' cs
  let (day, cs) ← readField 2 1 31 cs
  let cs ← match cs with
    | c :: rest => if c == 'T' || c == 't' || c == ' ' then .ok rest else .error .invalid
    | [] => .error .tooShort
  let (hour, cs) ← readField 2 0 23 cs
  let cs ← readMark ':' cs
  let (minute, cs) ← readField 2 0 59 cs
  let cs ← readMark ':' cs
  let (second, cs) ← readField 2 0 60 cs
  let (fraction, cs) ← match cs with
    | '.' :: rest => readFraction rest
    | rest => .ok (0, rest)
  let (offset, cs) ← match Text.trimLeft cs with
    | 'Z' :: rest => .ok (0, rest)
    | 'z' :: rest => .ok (0, rest)
    | a :: b :: c :: rest =>
      if [a.toLower, b.toLower, c.toLower] == ['u', 't', 'c'] then .ok (0, rest)
      else readOffset (fun cs => .ok (cs.dropWhile fun c => c == ':' || isBlank c)) (a :: b :: c :: rest)
    | rest => readOffset (fun cs => .ok (cs.dropWhile fun c => c == ':' || isBlank c)) rest
  if !(Text.trimLeft cs).isEmpty then .error .tooLong
  else
    match date? year month day with
    | none => .error .outOfRange
    | some date =>
      let (second, leap) := if second == 60 then (59, 1000000000) else (second, 0)
      assemble date hour minute second (leap + fraction) offset

end Runwatch.Time
