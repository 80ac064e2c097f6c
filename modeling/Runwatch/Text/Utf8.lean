/-
Runwatch.Text.Utf8 — the bytes of a text.

`encode` writes the bytes of each character. `decode?` reads them back and
refuses every other byte string: stray and missing continuation bytes,
overlong forms, surrogates and numbers beyond the last code point. The
first byte decides how many follow and which second bytes it allows.
-/

namespace Runwatch.Text.Utf8

/-- The bytes of one character. -/
def encodeChar (c : Char) : List UInt8 :=
  let n := c.toNat
  if n < 0x80 then [UInt8.ofNat n]
  else if n < 0x800 then [UInt8.ofNat (0xC0 + n / 64), UInt8.ofNat (0x80 + n % 64)]
  else if n < 0x10000 then
    [UInt8.ofNat (0xE0 + n / 4096), UInt8.ofNat (0x80 + n / 64 % 64), UInt8.ofNat (0x80 + n % 64)]
  else
    [UInt8.ofNat (0xF0 + n / 262144), UInt8.ofNat (0x80 + n / 4096 % 64),
     UInt8.ofNat (0x80 + n / 64 % 64), UInt8.ofNat (0x80 + n % 64)]

/-- The bytes of a list of characters. -/
def encode (cs : List Char) : List UInt8 := cs.flatMap encodeChar

/-- The bytes of a text. -/
def bytes (s : String) : List UInt8 := encode s.toList

/-- A continuation byte. -/
def isTail (b : UInt8) : Bool := 0x80 ≤ b && b ≤ 0xBF

/-- The payload of a continuation byte. -/
def tailBits (b : UInt8) : Nat := b.toNat % 64

/-- Whether `b` may stand second after `lead` in a character of three bytes. -/
def secondOfThree (lead b : UInt8) : Bool :=
  if lead == 0xE0 then 0xA0 ≤ b && b ≤ 0xBF
  else if lead == 0xED then 0x80 ≤ b && b ≤ 0x9F
  else isTail b

/-- Whether `b` may stand second after `lead` in a character of four bytes. -/
def secondOfFour (lead b : UInt8) : Bool :=
  if lead == 0xF0 then 0x90 ≤ b && b ≤ 0xBF
  else if lead == 0xF4 then 0x80 ≤ b && b ≤ 0x8F
  else isTail b

/-- Reads characters to the end; `done` holds those already read, last first. -/
def decodeOnto (done : List Char) : List UInt8 → Option (List Char)
  | [] => some done.reverse
  | a :: rest =>
    if a < 0x80 then decodeOnto (Char.ofNat a.toNat :: done) rest
    else if a < 0xC2 then none
    else if a < 0xE0 then
      match rest with
      | b :: rest =>
        if isTail b then
          decodeOnto (Char.ofNat ((a.toNat - 0xC0) * 64 + tailBits b) :: done) rest
        else none
      | [] => none
    else if a < 0xF0 then
      match rest with
      | b :: c :: rest =>
        if secondOfThree a b && isTail c then
          decodeOnto
            (Char.ofNat ((a.toNat - 0xE0) * 4096 + tailBits b * 64 + tailBits c) :: done) rest
        else none
      | _ => none
    else if a < 0xF5 then
      match rest with
      | b :: c :: d :: rest =>
        if secondOfFour a b && isTail c && isTail d then
          decodeOnto
            (Char.ofNat ((a.toNat - 0xF0) * 262144 + tailBits b * 4096 + tailBits c * 64
              + tailBits d) :: done) rest
        else none
      | _ => none
    else none

/-- The characters that a byte string encodes. -/
def decode? (bytes : List UInt8) : Option (List Char) := decodeOnto [] bytes

/-- The text that a byte string encodes. -/
def text? (bytes : List UInt8) : Option String := (decode? bytes).map String.ofList

end Runwatch.Text.Utf8
