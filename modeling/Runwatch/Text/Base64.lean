/-
Runwatch.Text.Base64 — bytes as text of 64 characters.

Three bytes are four characters of six bits each; one or two bytes at the
end are two or three characters, which some alphabets fill up with `=`.
Reading is strict: the bits that no byte needs are zero, so a byte string
has one text.
-/
namespace Runwatch.Text.Base64

/-- The choices in which such texts differ. -/
structure Alphabet where
  /-- The character of 62. -/
  plus : Char
  /-- The character of 63. -/
  slash : Char
  /-- Whether the end is filled up. -/
  isPadded : Bool

/-- The alphabet of mail and keys. -/
def standard : Alphabet := ⟨'+', '/', true⟩

/-- The alphabet for addresses and headers. -/
def url : Alphabet := ⟨'-', '_', false⟩

/-- The character of six bits. -/
def char (a : Alphabet) (n : Nat) : Char :=
  if n < 26 then Char.ofNat (65 + n)
  else if n < 52 then Char.ofNat (71 + n)
  else if n < 62 then Char.ofNat (n - 4)
  else if n == 62 then a.plus
  else a.slash

/-- The six bits of a character. -/
def value? (a : Alphabet) (c : Char) : Option Nat :=
  if 'A' ≤ c ∧ c ≤ 'Z' then some (c.toNat - 65)
  else if 'a' ≤ c ∧ c ≤ 'z' then some (c.toNat - 71)
  else if '0' ≤ c ∧ c ≤ '9' then some (c.toNat + 4)
  else if c = a.plus then some 62
  else if c = a.slash then some 63
  else none

/-- What fills up the end. -/
def padding (a : Alphabet) (count : Nat) : List Char :=
  if a.isPadded then List.replicate count '=' else []

/-- The text of a byte string. -/
def encode (a : Alphabet) : List UInt8 → List Char
  | x :: y :: z :: rest =>
    let n := x.toNat * 65536 + y.toNat * 256 + z.toNat
    char a (n / 262144) :: char a (n / 4096 % 64) :: char a (n / 64 % 64) :: char a (n % 64)
      :: encode a rest
  | [x, y] =>
    let n := x.toNat * 1024 + y.toNat * 4
    char a (n / 4096) :: char a (n / 64 % 64) :: char a (n % 64) :: padding a 1
  | [x] =>
    let n := x.toNat * 16
    char a (n / 64) :: char a (n % 64) :: padding a 2
  | [] => []

/-- The byte of two characters at the end. -/
def decodeTwo? (a : Alphabet) (c d : Char) : Option (List UInt8) := do
  let n := (← value? a c) * 64 + (← value? a d)
  if n % 16 = 0 then some [UInt8.ofNat (n / 16)] else none

/-- The bytes of three characters at the end. -/
def decodeThree? (a : Alphabet) (c d e : Char) : Option (List UInt8) := do
  let n := (← value? a c) * 4096 + (← value? a d) * 64 + (← value? a e)
  if n % 4 = 0 then some [UInt8.ofNat (n / 1024), UInt8.ofNat (n / 4 % 256)] else none

/-- The bytes of four characters. -/
def decodeFour? (a : Alphabet) (c d e f : Char) : Option (List UInt8) := do
  let n := (← value? a c) * 262144 + (← value? a d) * 4096 + (← value? a e) * 64 + (← value? a f)
  some [UInt8.ofNat (n / 65536), UInt8.ofNat (n / 256 % 256), UInt8.ofNat (n % 256)]

/-- The byte string of a text. -/
def decode? (a : Alphabet) : List Char → Option (List UInt8)
  | c :: d :: e :: f :: rest =>
    if a.isPadded ∧ rest = [] ∧ f = '=' then
      if e = '=' then decodeTwo? a c d else decodeThree? a c d e
    else do
      let bytes ← decodeFour? a c d e f
      let more ← decode? a rest
      some (bytes ++ more)
  | [c, d, e] => if a.isPadded then none else decodeThree? a c d e
  | [c, d] => if a.isPadded then none else decodeTwo? a c d
  | [_] => none
  | [] => some []

end Runwatch.Text.Base64
