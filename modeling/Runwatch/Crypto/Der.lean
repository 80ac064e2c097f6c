/-
Runwatch.Crypto.Der — the distinguished encoding of structured data.

An element is a tag, a length and a content. Lengths have one form only:
one byte up to 127, else the number of length bytes and as few of them as
the length needs.
-/
import Runwatch.Crypto.Sha256

namespace Runwatch.Crypto.Der

/-- A tagged content. -/
structure Element where
  tag : UInt8
  content : List UInt8
  deriving DecidableEq, Repr

/-- Tag of a whole number. -/
def integerTag : UInt8 := 0x02

/-- Tag of a string of bits. -/
def bitsTag : UInt8 := 0x03

/-- Tag of a string of bytes. -/
def bytesTag : UInt8 := 0x04

/-- Tag of an object identifier. -/
def identifierTag : UInt8 := 0x06

/-- Tag of a sequence of elements. -/
def sequenceTag : UInt8 := 0x30

/-- The universal tags that are known. -/
def universalTags : List UInt8 :=
  [0x01, 0x02, 0x03, 0x04, 0x05, 0x06, 0x09, 0x0A, 0x0C, 0x12, 0x13, 0x14, 0x15, 0x16, 0x17, 0x18,
   0x1A, 0x1D, 0x1E, 0x30, 0x31]

/-- Whether a byte is a tag; numbers beyond 30 are not. -/
def isTag (b : UInt8) : Bool :=
  universalTags.contains b || (0x40 ≤ b && b % 32 != 31)

/-- Whether a tag belongs to the enclosing structure. -/
def isField (tag : UInt8) : Bool := 0x80 ≤ tag && tag < 0xC0

/-- The length that `bytes` write with none to spare. -/
def longLength? (bytes : List UInt8) : Option Nat :=
  let n := natOfBytes bytes
  if n < 128 || n < Nat.pow 256 (bytes.length - 1) then none else some n

/-- Reads a length. -/
def readLength : List UInt8 → Option (Nat × List UInt8)
  | [] => none
  | b :: rest =>
    if b < 0x80 then some (b.toNat, rest)
    else
      let count := b.toNat - 0x80
      if 1 ≤ count && count ≤ 4 && count ≤ rest.length then
        (longLength? (rest.take count)).map fun n => (n, rest.drop count)
      else none

/-- Reads one element. -/
def readElement : List UInt8 → Option (Element × List UInt8)
  | [] => none
  | tag :: rest => do
    let (length, rest) ← readLength rest
    if isTag tag && length ≤ rest.length then
      some (⟨tag, rest.take length⟩, rest.drop length)
    else none

/-- Reads the content of an element with a certain tag. -/
def readTagged (tag : UInt8) (bytes : List UInt8) : Option (List UInt8 × List UInt8) := do
  let (e, rest) ← readElement bytes
  if e.tag == tag then some (e.content, rest) else none

/-- The content of the one element with a certain tag that `bytes` are. -/
def only? (tag : UInt8) (bytes : List UInt8) : Option (List UInt8) := do
  let (content, rest) ← readTagged tag bytes
  if rest.isEmpty then some content else none

/-- The whole bytes of a string of bits. -/
def wholeBits? : List UInt8 → Option (List UInt8)
  | 0 :: bytes => some bytes
  | _ => none

/-- Whether every arc of an identifier ends. -/
def isIdentifier (content : List UInt8) : Bool :=
  match content with
  | first :: _ => first < 120 && content.length ≤ 39 && content.getLast?.any (· < 0x80)
  | [] => false

/-- Reads the field with number `n`, if it comes next; fields with lower
numbers before it are passed over. -/
def readField (constructed : Bool) (n : UInt8) : Nat → List UInt8 →
    Option (Option (List UInt8) × List UInt8)
  | 0, _ => none
  | fuel + 1, bytes =>
    match bytes with
    | [] => some (none, [])
    | tag :: _ =>
      if !isTag tag then none
      else if !isField tag || tag % 32 > n then some (none, bytes)
      else do
        let (e, rest) ← readElement bytes
        if tag % 32 == n then
          if (tag % 64 ≥ 32) == constructed then some (some e.content, rest) else none
        else readField constructed n fuel rest

end Runwatch.Crypto.Der
