/-
Runwatch.Net.Percent — bytes that an address cannot hold as they are.

Such a byte is written as a percent sign and two digits. Which bytes those
are depends on the part of the address; bytes beyond ASCII always are. A
percent sign itself is kept, so a text that is already written this way
stays the same.
-/
import Runwatch.Text.Hex
import Runwatch.Text.Utf8

namespace Runwatch.Net

/-- A set of ASCII characters that are not written as they are. -/
abbrev EncodeSet := Char → Bool

/-- Controls. -/
def controlSet : EncodeSet := fun c => c.toNat < 0x20 || c.toNat == 0x7F

/-- What a fragment does not hold. -/
def fragmentSet : EncodeSet := fun c => controlSet c || [' ', '"', '<', '>', '\x60'].contains c

/-- What a path does not hold. -/
def pathSet : EncodeSet := fun c => fragmentSet c || ['#', '?', '\x7b', '\x7d'].contains c

/-- What a user name or a password does not hold. -/
def userSet : EncodeSet :=
  fun c => pathSet c || ['/', ':', ';', '=', '@', '[', '\\', ']', '^', '|'].contains c

/-- What a query does not hold; with a scheme of the web it holds no
apostrophe either. -/
def querySet (special : Bool) : EncodeSet :=
  fun c => controlSet c || [' ', '"', '#', '<', '>'].contains c || (special && c == '\'')

/-- A byte as a percent sign and two digits. -/
def percentByte (b : UInt8) : List Char :=
  ['%', Text.upperHexDigit (b.toNat / 16), Text.upperHexDigit (b.toNat % 16)]

/-- The written form of a text. -/
def percentEncode (set : EncodeSet) (cs : List Char) : List Char :=
  cs.flatMap fun c =>
    if c.toNat < 0x80 && !set c then [c] else (Text.Utf8.encodeChar c).flatMap percentByte

/-- The bytes that a written form stands for. -/
def percentDecode : List Char → List UInt8
  | '%' :: a :: b :: rest =>
    match Text.hexValue? a, Text.hexValue? b with
    | some hi, some lo => UInt8.ofNat (16 * hi + lo) :: percentDecode rest
    | _, _ => 0x25 :: percentDecode (a :: b :: rest)
  | c :: rest => Text.Utf8.encodeChar c ++ percentDecode rest
  | [] => []

end Runwatch.Net
