/-
Runwatch.Toml.Scalar — texts, numbers and dates as TOML writes them.

A reader gives what it read and the rest. Where it cannot go on it gives
the rest from there; so the length of that rest is the place of the error.
-/
import Runwatch.Json.Value
import Runwatch.Text.Decimal
import Runwatch.Text.Hex

namespace Runwatch.Toml

open Text (isDigit digitValue)

/-- The outcome of reading: a result and the rest, or the rest from where
reading could not go on. -/
abbrev Reading := Except (List Char)

/-! ## Blanks, comments and lines -/

/-- A space or a tab. -/
def isGap (c : Char) : Bool := c == ' ' || c == '\t'

/-- Drops spaces and tabs. -/
def skipGap (cs : List Char) : List Char := cs.dropWhile isGap

/-- The rest after a line end. -/
def lineFeed? : List Char → Option (List Char)
  | '\n' :: rest => some rest
  | '\r' :: '\n' :: rest => some rest
  | _ => none

/-- A character that may stand in a text or a comment as it is. -/
def isShown (c : Char) : Bool := c == '\t' || (' ' ≤ c && c != '\x7f')

/-- Reads blanks, a comment and the end of the line. -/
def endLine (cs : List Char) : Reading (List Char) :=
  let cs := match skipGap cs with
    | '#' :: rest => rest.dropWhile isShown
    | rest => rest
  if cs.isEmpty then .ok []
  else match lineFeed? cs with
    | some rest => .ok rest
    | none => .error cs

/-- Drops blanks, line ends and whole comments. -/
def skipLines : Nat → List Char → List Char
  | 0, cs => cs
  | fuel + 1, cs =>
    match skipGap cs with
    | '#' :: rest =>
      match lineFeed? (rest.dropWhile isShown) with
      | some rest => skipLines fuel rest
      | none => '#' :: rest
    | rest =>
      match lineFeed? rest with
      | some rest => skipLines fuel rest
      | none => rest

/-! ## Texts -/

/-- Reads the `width` hexadecimal digits of a character. -/
def readCodePoint (width : Nat) (cs : List Char) : Reading (Char × List Char) :=
  let digits := cs.take width
  match digits.mapM Text.hexValue? with
  | some values =>
    let n := values.foldl (fun acc v => 16 * acc + v) 0
    if digits.length == width && (n < 0xD800 || (0xDFFF < n && n < 0x110000)) then
      .ok (Char.ofNat n, cs.drop width)
    else .error cs
  | none => .error cs

/-- Reads what follows a backslash. -/
def readEscape : List Char → Reading (Char × List Char)
  | 'b' :: rest => .ok ('\x08', rest)
  | 't' :: rest => .ok ('\t', rest)
  | 'n' :: rest => .ok ('\n', rest)
  | 'f' :: rest => .ok ('\x0c', rest)
  | 'r' :: rest => .ok ('\r', rest)
  | '"' :: rest => .ok ('"', rest)
  | '\\' :: rest => .ok ('\\', rest)
  | 'u' :: rest => readCodePoint 4 rest
  | 'U' :: rest => readCodePoint 8 rest
  | c :: rest => .error (if c.toNat < 0x80 then rest else c :: rest)
  | [] => .error []

/-- Reads a text in double quotes, after the first of them. -/
def readBasic : Nat → List Char → List Char → Reading (String × List Char)
  | 0, _, cs => .error cs
  | fuel + 1, done, cs =>
    match cs with
    | '"' :: rest => .ok (String.ofList done.reverse, rest)
    | '\\' :: rest => do
      let (c, rest) ← readEscape rest
      readBasic fuel (c :: done) rest
    | c :: rest => if isShown c then readBasic fuel (c :: done) rest else .error cs
    | [] => .error []

/-- Reads a text in single quotes, after the first of them. -/
def readLiteral (cs : List Char) : Reading (String × List Char) :=
  let plain (c : Char) : Bool := isShown c && c != '\''
  match cs.dropWhile plain with
  | '\'' :: rest => .ok (String.ofList (cs.takeWhile plain), rest)
  | rest => .error rest

/-- How many of `count` quotes in a row belong to a text that they end; up
to two may stand before the three that end it. -/
def quotesInside (count : Nat) : Nat := min (count - 3) 2

/-- Whether what follows quotes goes on with a text of several lines. -/
def continuesText (cs : List Char) : Bool :=
  match cs with
  | c :: _ => isShown c || (lineFeed? cs).isSome
  | [] => false

/-- Reads a run of quotes inside a text of several lines: the characters
that belong to it, whether it ends there, and the rest. -/
def readQuotes (quote : Char) (cs : List Char) : Reading (List Char × Bool × List Char) :=
  let count := (cs.takeWhile (· == quote)).length
  let rest := cs.drop count
  if 3 ≤ count then
    let inside := quotesInside count
    .ok (List.replicate inside quote, true, cs.drop (inside + 3))
  else if continuesText rest then .ok (List.replicate count quote, false, rest)
  else .error cs

/-- Drops blanks and line ends. -/
def skipFolded : Nat → List Char → List Char
  | 0, cs => cs
  | fuel + 1, cs =>
    let cs := skipGap cs
    match lineFeed? cs with
    | some rest => skipFolded fuel rest
    | none => cs

/-- Reads a text of several lines, after its opening. A text in double
quotes has escapes, and a backslash at the end of a line joins it to the
next. -/
def readLines (quote : Char) : Nat → List Char → List Char → Reading (String × List Char)
  | 0, _, cs => .error cs
  | fuel + 1, done, cs =>
    match lineFeed? cs with
    | some rest => readLines quote fuel ('\n' :: done) rest
    | none =>
      match cs with
      | [] => .error []
      | c :: rest =>
        if c == quote then
          match readQuotes quote cs with
          | .error stuck => .error stuck
          | .ok (text, true, rest) => .ok (String.ofList (text ++ done).reverse, rest)
          | .ok (text, false, rest) => readLines quote fuel (text ++ done) rest
        else if c == '\\' && quote == '"' then
          match lineFeed? (skipGap rest) with
          | some next => readLines quote fuel done (skipFolded next.length next)
          | none => do
            let (e, rest) ← readEscape rest
            readLines quote fuel (e :: done) rest
        else if isShown c then readLines quote fuel (c :: done) rest
        else .error cs

/-- The text without a line end at its start. -/
def dropFirstLineFeed (cs : List Char) : List Char := (lineFeed? cs).getD cs

/-- Reads a text, which begins with a quote. -/
def readText (cs : List Char) : Reading (String × List Char) :=
  match cs with
  | '"' :: '"' :: '"' :: rest => readLines '"' cs.length [] (dropFirstLineFeed rest)
  | '\'' :: '\'' :: '\'' :: rest => readLines '\'' cs.length [] (dropFirstLineFeed rest)
  | '"' :: rest => readBasic cs.length [] rest
  | '\'' :: rest => readLiteral rest
  | _ => .error cs

/-! ## Numbers -/

/-- Reads further digits, which single underscores may part, in front of
those already read, last first. -/
def readDigits (accepted : Char → Bool) (done : List Char) : List Char → Reading (List Char × List Char)
  | '_' :: c :: rest =>
    if accepted c then readDigits accepted (c :: done) rest else .error (c :: rest)
  | ['_'] => .error []
  | c :: rest =>
    if accepted c then readDigits accepted (c :: done) rest else .ok (done.reverse, c :: rest)
  | [] => .ok (done.reverse, [])

/-- Reads one digit or more. -/
def readRun (accepted : Char → Bool) (cs : List Char) : Reading (List Char × List Char) :=
  match cs with
  | c :: rest => if accepted c then readDigits accepted [c] rest else .error cs
  | [] => .error []

/-- Reads a sign. -/
def readSign : List Char → Bool × List Char
  | '-' :: rest => (true, rest)
  | '+' :: rest => (false, rest)
  | cs => (false, cs)

/-- Reads the digits of a whole number, which begin with zero only if that
is all of them. -/
def readWhole (cs : List Char) : Reading (List Char × List Char) :=
  match cs with
  | '0' :: rest => .ok (['0'], rest)
  | _ => readRun isDigit cs

/-- Reads an exponent, after its letter. -/
def readPower (cs : List Char) : Reading (Int × List Char) := do
  let (negative, cs) := readSign cs
  let (digits, rest) ← readRun isDigit cs
  let n : Int := Text.natOfDigits 0 digits
  pure (if negative then -n else n, rest)

/-- Positive infinity. -/
def infinity : Double := ⟨0x7FF0000000000000⟩

/-- A number that is none. -/
def notNumber : Double := ⟨0x7FF8000000000000⟩

/-- The double nearest to `digits * 10 ^ power`, infinite beyond the range
of a double. -/
def decimalDouble (digits : List Char) (power : Int) : Double :=
  let n := Text.natOfDigits 0 digits
  let size : Int := (Text.decimalChars n).length + power
  if n == 0 || size < -400 then Double.zero
  else if 400 < size then infinity
  else
    let d := if power ≥ 0 then Double.ofRatio? (n * Nat.pow 10 power.toNat) 1
      else Double.ofRatio? n (Nat.pow 10 (-power).toNat)
    d.getD infinity

/-- A double with its sign; a positive one must be finite. -/
def signedDouble (start : List Char) (negative : Bool) (digits : List Char) (power : Int)
    (rest : List Char) : Reading (Json.Value × List Char) :=
  let d := decimalDouble digits power
  if negative then .ok (.number (.double d.neg), rest)
  else if d.isFinite then .ok (.number (.double d), rest)
  else .error start

/-- Reads what makes a number a double: a fraction, an exponent or both.
None where neither follows. -/
def readFraction? (start : List Char) (negative : Bool) (whole cs : List Char) :
    Option (Reading (Json.Value × List Char)) :=
  let power (digits : List Char) (scale : Int) (cs : List Char) : Reading (Json.Value × List Char) := do
    let (p, rest) ← readPower cs
    signedDouble start negative digits (scale + p) rest
  match cs with
  | 'e' :: rest => some (power whole 0 rest)
  | 'E' :: rest => some (power whole 0 rest)
  | '.' :: rest => some do
    let (fraction, rest) ← readRun isDigit rest
    let scale : Int := -(fraction.length : Int)
    match rest with
    | 'e' :: rest => power (whole ++ fraction) scale rest
    | 'E' :: rest => power (whole ++ fraction) scale rest
    | rest => signedDouble start negative (whole ++ fraction) scale rest
  | _ => none

/-- A whole number of 64 bits with a sign. -/
def wholeNumber? (negative : Bool) (n : Nat) : Option Json.Value :=
  if negative && n != 0 then
    if h : n - 1 < Json.negatives then some (.number (.negative ⟨n - 1, h⟩)) else none
  else if n < Json.negatives then some (.number (.natural (UInt64.ofNat n)))
  else none

/-- Reads digits of another base, after the mark of the base. -/
def readBased (start : List Char) (base : Nat) (cs : List Char) : Reading (Json.Value × List Char) := do
  let accepted (c : Char) : Bool := (Text.hexValue? c).any (· < base)
  let (digits, rest) ← readRun accepted cs
  let n := digits.foldl (fun acc c => base * acc + (Text.hexValue? c).getD 0) 0
  match wholeNumber? false n with
  | some v => .ok (v, rest)
  | none => .error start

/-- Reads a number. -/
def readNumber (cs : List Char) : Reading (Json.Value × List Char) :=
  let (negative, unsigned) := readSign cs
  let signed (d : Double) : Json.Value := .number (.double (if negative then d.neg else d))
  match cs, unsigned with
  | '0' :: 'x' :: rest, _ => readBased cs 16 rest
  | '0' :: 'o' :: rest, _ => readBased cs 8 rest
  | '0' :: 'b' :: rest, _ => readBased cs 2 rest
  | _, 'i' :: 'n' :: 'f' :: rest => .ok (signed infinity, rest)
  | _, 'n' :: 'a' :: 'n' :: rest => .ok (signed notNumber, rest)
  | _, _ => do
    let (whole, rest) ← readWhole unsigned
    match readFraction? cs negative whole rest with
    | some reading => reading
    | none =>
      match wholeNumber? negative (Text.natOfDigits 0 whole) with
      | some v => .ok (v, rest)
      | none => .error cs

/-! ## Dates -/

/-- A number of exactly `width` digits. -/
def fixedDigits? (width : Nat) (cs : List Char) : Option (Nat × List Char) :=
  let digits := cs.take width
  if digits.length == width && digits.all isDigit then
    some (Text.natOfDigits 0 digits, cs.drop width)
  else none

/-- Reads a number of two digits between bounds. -/
def readPair (low high : Nat) (cs : List Char) : Reading (Nat × List Char) :=
  match fixedDigits? 2 cs with
  | some (n, rest) => if low ≤ n && n ≤ high then .ok (n, rest) else .error cs
  | none => .error cs

/-- Reads a mark. -/
def readMark (mark : Char) : List Char → Reading (List Char)
  | c :: rest => if c == mark then .ok rest else .error (c :: rest)
  | [] => .error []

/-- The days of a month. -/
def monthDays (year month : Nat) : Nat :=
  if month == 2 then
    (if year % 4 == 0 && (year % 100 != 0 || year % 400 == 0) then 29 else 28)
  else if month == 4 || month == 6 || month == 9 || month == 11 then 30
  else 31

/-- The rest after an hour and a colon. -/
def hour? (cs : List Char) : Option (List Char) :=
  match fixedDigits? 2 cs with
  | some (n, ':' :: rest) => if n ≤ 23 then some rest else none
  | _ => none

/-- Reads minutes, seconds and a fraction, after the hour. -/
def readMinutes (cs : List Char) : Reading (List Char) := do
  let (_, cs) ← readPair 0 59 cs
  let cs ← readMark ':' cs
  let (_, cs) ← readPair 0 60 cs
  match cs with
  | '.' :: c :: rest =>
    if isDigit c then pure (rest.dropWhile isDigit) else pure ('.' :: c :: rest)
  | cs => pure cs

/-- Reads an offset from universal time, if one follows. -/
def readZone (cs : List Char) : Reading (List Char) :=
  match cs with
  | 'Z' :: rest => .ok rest
  | 'z' :: rest => .ok rest
  | c :: rest =>
    if c == '+' || c == '-' then do
      let (_, rest) ← readPair 0 23 rest
      let rest ← readMark ':' rest
      let (_, rest) ← readPair 0 59 rest
      pure rest
    else .ok cs
  | [] => .ok cs

/-- Reads month and day, after the year, then a time that may follow. -/
def readDay (year : Nat) (cs : List Char) : Reading (List Char) := do
  let (month, cs) ← readPair 1 12 cs
  let atDay ← readMark '-' cs
  let (day, cs) ← readPair 1 31 atDay
  if monthDays year month < day then .error atDay
  else
    match cs with
    | c :: rest =>
      if c == 'T' || c == 't' || c == ' ' then
        match hour? rest with
        | some rest => do
          let rest ← readMinutes rest
          readZone rest
        | none => pure cs
      else pure cs
    | [] => pure cs

/-- Reads a date or a time, if one stands here. -/
def readDate? (cs : List Char) : Option (Reading (List Char)) :=
  match fixedDigits? 4 cs with
  | some (year, '-' :: rest) => some (readDay year rest)
  | _ => (hour? cs).map readMinutes

end Runwatch.Toml
