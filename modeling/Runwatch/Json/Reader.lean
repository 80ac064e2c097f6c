/-
Runwatch.Json.Reader — reading JSON text.

The reader takes the text as characters and gives a value with the rest of
the text. Between tokens stand spaces, tabs and line ends. A text may nest
127 arrays and objects. Strings hold no control characters, and an escaped
surrogate must be the first of a pair. Of members with one name the last
counts. A number beyond the range of a double is refused.
-/
import Runwatch.Json.Value
import Runwatch.Text.Decimal
import Runwatch.Text.Hex
import Runwatch.Text.Utf8

namespace Runwatch.Json

open Text (isDigit digitValue)

/-- The arrays and objects that may stand inside one another. -/
def maxNesting : Nat := 127

/-- A blank between tokens. -/
def isGap (c : Char) : Bool := c == ' ' || c == '\n' || c == '\t' || c == '\r'

/-- The text from the first character that is not a gap. -/
def skipGap (cs : List Char) : List Char := cs.dropWhile isGap

/-! ## Strings -/

/-- The character that a one-letter escape stands for. -/
def simpleEscape? (c : Char) : Option Char :=
  if c == '"' then some '"'
  else if c == '\\' then some '\\'
  else if c == '/' then some '/'
  else if c == 'b' then some '\x08'
  else if c == 'f' then some '\x0c'
  else if c == 'n' then some '\n'
  else if c == 'r' then some '\r'
  else if c == 't' then some '\t'
  else none

/-- The code unit that four hexadecimal digits write. -/
def codeUnit? (a b c d : Char) : Option Nat := do
  let a ← Text.hexValue? a
  let b ← Text.hexValue? b
  let c ← Text.hexValue? c
  let d ← Text.hexValue? d
  pure (((a * 16 + b) * 16 + c) * 16 + d)

/-- A code unit that opens a surrogate pair. -/
def isHighSurrogate (u : Nat) : Bool := 0xD800 ≤ u && u < 0xDC00

/-- A code unit that closes a surrogate pair. -/
def isLowSurrogate (u : Nat) : Bool := 0xDC00 ≤ u && u < 0xE000

/-- The character of a surrogate pair. -/
def pairChar (high low : Nat) : Char :=
  Char.ofNat (0x10000 + (high - 0xD800) * 0x400 + (low - 0xDC00))

/-- Reads a string after its opening quote; `done` holds the characters
read so far, last first. -/
def readStringOnto (done : List Char) : List Char → Option (String × List Char)
  | [] => none
  | '"' :: rest => some (String.ofList done.reverse, rest)
  | '\\' :: 'u' :: a :: b :: c :: d :: rest =>
    match codeUnit? a b c d with
    | none => none
    | some u =>
      if isHighSurrogate u then
        match rest with
        | '\\' :: 'u' :: a :: b :: c :: d :: rest =>
          match codeUnit? a b c d with
          | none => none
          | some l =>
            if isLowSurrogate l then readStringOnto (pairChar u l :: done) rest else none
        | _ => none
      else if isLowSurrogate u then none
      else readStringOnto (Char.ofNat u :: done) rest
  | '\\' :: c :: rest =>
    match simpleEscape? c with
    | some e => readStringOnto (e :: done) rest
    | none => none
  | c :: rest => if c.toNat < 0x20 then none else readStringOnto (c :: done) rest

/-- Reads a string after its opening quote. -/
def readString (cs : List Char) : Option (String × List Char) := readStringOnto [] cs

/-! ## Numbers -/

/-- Digits taken into a significand of 64 bits: the significand, how many were
taken, and the digits from the first that did not fit. -/
def takeDigits (acc taken : Nat) : List Char → Nat × Nat × List Char
  | [] => (acc, taken, [])
  | c :: rest =>
    let longer := acc * 10 + digitValue c
    if longer < UInt64.size then takeDigits longer (taken + 1) rest else (acc, taken, c :: rest)

/-- The double nearest to a power of ten up to `10 ^ 308`. -/
@[irreducible] def powerOfTen (k : Nat) : Double := (Double.ofNat? (Nat.pow 10 k)).getD Double.zero

/-- Scales `d` by `10 ^ exponent` in steps of at most 308, each rounded;
none beyond the range of a double. -/
def scaleDouble? : Nat → Double → Int → Option Double
  | 0, d, _ => some d
  | fuel + 1, d, exponent =>
    if exponent.natAbs ≤ 308 then
      if exponent ≥ 0 then d.mul? (powerOfTen exponent.natAbs)
      else d.div? (powerOfTen exponent.natAbs)
    else if d.isZero then some d
    else if exponent ≥ 0 then none
    else match d.div? (powerOfTen 308) with
      | some d => scaleDouble? fuel d (exponent + 308)
      | none => none

/-- The double `significand * 10 ^ exponent` with its sign. -/
def assembleDouble? (negative : Bool) (significand : Nat) (exponent : Int) : Option Double := do
  let d ← Double.ofNat? significand
  let d ← scaleDouble? 8 d exponent
  pure (if negative then d.neg else d)

/-- The largest exponent that is counted; a written one beyond it is
handled without its value. -/
def maxExponent : Int := 2147483647

/-- Reads an exponent, after its letter, and applies it. -/
def readExponent (negative : Bool) (significand : Nat) (start : Int) (cs : List Char) :
    Option (Number × List Char) :=
  let (down, cs) := match cs with
    | '+' :: rest => (false, rest)
    | '-' :: rest => (true, rest)
    | _ => (false, cs)
  let digits := cs.takeWhile isDigit
  let rest := cs.dropWhile isDigit
  if digits.isEmpty then none
  else
    let written : Int := Text.natOfDigits 0 digits
    if written > maxExponent then
      if significand != 0 && !down then none
      else some (.double (if negative then Double.zero.neg else Double.zero), rest)
    else
      let exponent := if down then start - written else start + written
      let exponent := max (-maxExponent - 1) (min maxExponent exponent)
      (assembleDouble? negative significand exponent).map fun d => (.double d, rest)

/-- Reads what follows the whole part of a number that is a double:
digits after a point, then an exponent. Digits that do not fit into the
significand are passed over. -/
def readFraction (negative : Bool) (significand : Nat) (start : Int) (cs : List Char) :
    Option (Number × List Char) :=
  let point := cs.head? == some '.'
  let digits := if point then (cs.drop 1).takeWhile isDigit else []
  let rest := if point then (cs.drop 1).dropWhile isDigit else cs
  if point && digits.isEmpty then none
  else
    let (significand, taken, _) := takeDigits significand 0 digits
    let exponent := start - taken
    match rest with
    | 'e' :: rest => readExponent negative significand exponent rest
    | 'E' :: rest => readExponent negative significand exponent rest
    | _ => (assembleDouble? negative significand exponent).map fun d => (.double d, rest)

/-- A whole number as a JSON number: zero with a minus sign and integers of
more than 64 bits are doubles. -/
def wholeNumber? (negative : Bool) (n : Nat) : Option Number :=
  if negative then
    if h : 0 < n ∧ n ≤ negatives then some (.negative ⟨n - 1, by omega⟩)
    else (Double.ofNat? n).map fun d => .double d.neg
  else some (.natural (UInt64.ofNat n))

/-- Reads a number after its sign. -/
def readUnsigned (negative : Bool) (cs : List Char) : Option (Number × List Char) :=
  let digits := cs.takeWhile isDigit
  let rest := cs.dropWhile isDigit
  match digits with
  | [] => none
  | '0' :: _ :: _ => none
  | _ =>
    let (significand, _, left) := takeDigits 0 0 digits
    let fractional := match rest with
      | c :: _ => c == '.' || c == 'e' || c == 'E'
      | [] => false
    if left.isEmpty && !fractional then
      (wholeNumber? negative significand).map fun n => (n, rest)
    else readFraction negative significand left.length rest

/-- Reads a number. -/
def readNumber (cs : List Char) : Option (Number × List Char) :=
  match cs with
  | '-' :: rest => readUnsigned true rest
  | _ => readUnsigned false cs

/-! ## Values -/

mutual

/-- Reads a value that may hold `depth` levels of arrays and objects. -/
def readValue : Nat → Nat → List Char → Option (Value × List Char)
  | 0, _, _ => none
  | fuel + 1, depth, cs =>
    match skipGap cs with
    | 'n' :: 'u' :: 'l' :: 'l' :: rest => some (.null, rest)
    | 't' :: 'r' :: 'u' :: 'e' :: rest => some (.bool true, rest)
    | 'f' :: 'a' :: 'l' :: 's' :: 'e' :: rest => some (.bool false, rest)
    | '"' :: rest => (readString rest).map fun (s, rest) => (.string s, rest)
    | '[' :: rest =>
      match depth with
      | 0 => none
      | depth + 1 =>
        match skipGap rest with
        | ']' :: rest => some (.array [], rest)
        | rest => readElements fuel depth [] rest
    | '\x7b' :: rest =>
      match depth with
      | 0 => none
      | depth + 1 =>
        match skipGap rest with
        | '\x7d' :: rest => some (.object [], rest)
        | rest => readMembers fuel depth [] rest
    | rest => (readNumber rest).map fun (n, rest) => (.number n, rest)

/-- Reads the elements of an array; `done` holds those already read, last
first. -/
def readElements : Nat → Nat → List Value → List Char → Option (Value × List Char)
  | 0, _, _, _ => none
  | fuel + 1, depth, done, cs =>
    match readValue fuel depth cs with
    | none => none
    | some (v, rest) =>
      match skipGap rest with
      | ',' :: rest => readElements fuel depth (v :: done) rest
      | ']' :: rest => some (.array (v :: done).reverse, rest)
      | _ => none

/-- Reads the members of an object after those in `done`. -/
def readMembers : Nat → Nat → Members → List Char → Option (Value × List Char)
  | 0, _, _, _ => none
  | fuel + 1, depth, done, cs =>
    match skipGap cs with
    | '"' :: rest =>
      match readString rest with
      | none => none
      | some (name, rest) =>
        match skipGap rest with
        | ':' :: rest =>
          match readValue fuel depth rest with
          | none => none
          | some (v, rest) =>
            let done := Members.insert name v done
            match skipGap rest with
            | ',' :: rest => readMembers fuel depth done rest
            | '\x7d' :: rest => some (.object done, rest)
            | _ => none
        | _ => none
    | _ => none

end

/-- The value that a list of characters writes. -/
def parseChars? (cs : List Char) : Option Value :=
  match readValue (2 * cs.length + 2) maxNesting cs with
  | some (v, rest) => if (skipGap rest).isEmpty then some v else none
  | none => none

/-- The value that a text writes. -/
def parse? (s : String) : Option Value := parseChars? s.toList

/-- The value that a byte string writes. -/
def parseBytes? (bytes : List UInt8) : Option Value := (Text.Utf8.decode? bytes).bind parseChars?

end Runwatch.Json
