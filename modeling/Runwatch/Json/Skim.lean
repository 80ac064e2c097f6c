/-
Runwatch.Json.Skim — passing over JSON text without reading it.

Where only one member of an object matters, the others need to be JSON by
their shape alone: strings may hold any bytes but controls, escapes need
only their form, numbers may have any size, and arrays and objects may nest
to any depth. The text is taken as bytes, since what is passed over need
not be a text.
-/
import Runwatch.Json.Reader

namespace Runwatch.Json.Skim

/-- A blank between tokens. -/
def isGapByte (b : UInt8) : Bool := b == 0x20 || b == 0x0A || b == 0x09 || b == 0x0D

/-- The bytes from the first that is not a gap. -/
def skipGapBytes (bs : List UInt8) : List UInt8 := bs.dropWhile isGapByte

/-- A digit. -/
def isDigitByte (b : UInt8) : Bool := 0x30 ≤ b && b ≤ 0x39

/-- A hexadecimal digit. -/
def isHexByte (b : UInt8) : Bool := (Text.hexValue? (Char.ofNat b.toNat)).isSome

/-- A letter that may follow a backslash alone. -/
def isEscapeByte (b : UInt8) : Bool := (simpleEscape? (Char.ofNat b.toNat)).isSome

/-- Passes over a string after its opening quote. -/
def skipString : List UInt8 → Option (List UInt8)
  | [] => none
  | 0x22 :: rest => some rest
  | 0x5C :: 0x75 :: a :: b :: c :: d :: rest =>
    if isHexByte a && isHexByte b && isHexByte c && isHexByte d then skipString rest else none
  | 0x5C :: e :: rest => if isEscapeByte e then skipString rest else none
  | b :: rest => if b < 0x20 then none else skipString rest

/-- Passes over digits, of which there must be one. -/
def skipDigits (bs : List UInt8) : Option (List UInt8) :=
  match bs with
  | b :: _ => if isDigitByte b then some (bs.dropWhile isDigitByte) else none
  | [] => none

/-- Passes over an exponent, if there is one. -/
def skipExponent (bs : List UInt8) : Option (List UInt8) :=
  match bs with
  | b :: rest =>
    if b == 0x65 || b == 0x45 then
      match rest with
      | 0x2B :: rest => skipDigits rest
      | 0x2D :: rest => skipDigits rest
      | rest => skipDigits rest
    else some bs
  | [] => some []

/-- Passes over a fraction and an exponent, if there are any. -/
def skipFraction (bs : List UInt8) : Option (List UInt8) :=
  match bs with
  | 0x2E :: rest => (skipDigits rest).bind skipExponent
  | bs => skipExponent bs

/-- Passes over a number after its sign. -/
def skipUnsigned (bs : List UInt8) : Option (List UInt8) :=
  match bs with
  | 0x30 :: rest =>
    match rest with
    | b :: _ => if isDigitByte b then none else skipFraction rest
    | [] => some []
  | bs => (skipDigits bs).bind skipFraction

/-- Passes over a number. -/
def skipNumber (bs : List UInt8) : Option (List UInt8) :=
  match bs with
  | 0x2D :: rest => skipUnsigned rest
  | bs => skipUnsigned bs

mutual

/-- Passes over a value. -/
def skipValue : Nat → List UInt8 → Option (List UInt8)
  | 0, _ => none
  | fuel + 1, bs =>
    match skipGapBytes bs with
    | 0x6E :: 0x75 :: 0x6C :: 0x6C :: rest => some rest
    | 0x74 :: 0x72 :: 0x75 :: 0x65 :: rest => some rest
    | 0x66 :: 0x61 :: 0x6C :: 0x73 :: 0x65 :: rest => some rest
    | 0x22 :: rest => skipString rest
    | 0x5B :: rest =>
      match skipGapBytes rest with
      | 0x5D :: rest => some rest
      | rest => skipElements fuel rest
    | 0x7B :: rest =>
      match skipGapBytes rest with
      | 0x7D :: rest => some rest
      | rest => skipMembers fuel rest
    | rest => skipNumber rest

/-- Passes over the elements of an array and its end. -/
def skipElements : Nat → List UInt8 → Option (List UInt8)
  | 0, _ => none
  | fuel + 1, bs =>
    match skipValue fuel bs with
    | none => none
    | some rest =>
      match skipGapBytes rest with
      | 0x2C :: rest => skipElements fuel rest
      | 0x5D :: rest => some rest
      | _ => none

/-- Passes over the members of an object and its end. -/
def skipMembers : Nat → List UInt8 → Option (List UInt8)
  | 0, _ => none
  | fuel + 1, bs =>
    match skipGapBytes bs with
    | 0x22 :: rest =>
      match skipString rest with
      | none => none
      | some rest =>
        match skipGapBytes rest with
        | 0x3A :: rest =>
          match skipValue fuel rest with
          | none => none
          | some rest =>
            match skipGapBytes rest with
            | 0x2C :: rest => skipMembers fuel rest
            | 0x7D :: rest => some rest
            | _ => none
        | _ => none
    | _ => none

end

/-- Passes over a value, however large. -/
def skip (bs : List UInt8) : Option (List UInt8) := skipValue (2 * bs.length + 2) bs

/-- Reads a string after its opening quote. -/
def readText (bs : List UInt8) : Option (String × List UInt8) := do
  let rest ← skipString bs
  let chars ← Text.Utf8.decode? (bs.take (bs.length - rest.length))
  match readString chars with
  | some (s, []) => pure (s, rest)
  | _ => none

/-- Reads a string, or null. -/
def readText? (bs : List UInt8) : Option (Option String × List UInt8) :=
  match skipGapBytes bs with
  | 0x6E :: 0x75 :: 0x6C :: 0x6C :: rest => some (none, rest)
  | 0x22 :: rest => (readText rest).map fun (s, rest) => (some s, rest)
  | _ => none

/-- Reads the members of an object for the one called `name`, whose value
is a string or null and which may stand there once; `seen` is its value if
it was met. -/
def readMember (name : String) : Nat → Option (Option String) → List UInt8 →
    Option (Option String × List UInt8)
  | 0, _, _ => none
  | fuel + 1, seen, bs =>
    match skipGapBytes bs with
    | 0x22 :: rest =>
      match readText rest with
      | none => none
      | some (key, rest) =>
        match skipGapBytes rest with
        | 0x3A :: rest =>
          let value : Option (Option (Option String) × List UInt8) :=
            if key == name then
              if seen.isSome then none else (readText? rest).map fun (s, rest) => (some s, rest)
            else (skip rest).map fun rest => (seen, rest)
          match value with
          | none => none
          | some (seen, rest) =>
            match skipGapBytes rest with
            | 0x2C :: rest => readMember name fuel seen rest
            | 0x7D :: rest => some (seen.join, rest)
            | _ => none
        | _ => none
    | _ => none

/-- The string member called `name` of an object, or the only element of an
array, if the whole text has such a form. -/
def textMember? (name : String) (bs : List UInt8) : Option (Option String) :=
  let ends (r : Option (Option String × List UInt8)) : Option (Option String) :=
    match r with
    | some (s, rest) => if (skipGapBytes rest).isEmpty then some s else none
    | none => none
  match skipGapBytes bs with
  | 0x7B :: rest =>
    match skipGapBytes rest with
    | 0x7D :: rest => ends (some (none, rest))
    | rest => ends (readMember name (bs.length + 1) none rest)
  | 0x5B :: rest =>
    match readText? rest with
    | some (s, rest) =>
      match skipGapBytes rest with
      | 0x5D :: rest => ends (some (s, rest))
      | _ => none
    | none => none
  | _ => none

end Runwatch.Json.Skim
