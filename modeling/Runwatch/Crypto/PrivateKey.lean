/-
Runwatch.Crypto.PrivateKey — reading a signing key from its text.

The text is a block between a BEGIN and an END line, with lines of 64
characters in between. The block holds a key structure that names the
algorithm and the curve, and in it the number of the key, with which a
public key has to agree if there is one.
-/
import Runwatch.Crypto.Der
import Runwatch.Crypto.Ecdsa
import Runwatch.Text.Base64
import Runwatch.Text.Utf8

namespace Runwatch.Crypto

/-! ## The text -/

/-- The mark at both ends of a boundary line. -/
def dashes : List Char := "-----".toList

/-- What a block begins with. -/
def blockOpening : List Char := "-----BEGIN ".toList

/-- What ends a block, before its label. -/
def blockEnding : List Char := "-----END ".toList

/-- The rest after a line end of any kind. -/
def afterLineEnd? : List Char → Option (List Char)
  | '\r' :: '\n' :: rest => some rest
  | '\n' :: rest => some rest
  | '\r' :: rest => some rest
  | _ => none

/-- The text before a line end of any kind, of a reversed text. -/
def beforeLineEnd? : List Char → Option (List Char)
  | '\n' :: '\r' :: rest => some rest
  | '\n' :: rest => some rest
  | '\r' :: rest => some rest
  | _ => none

/-- The rest after a beginning. -/
def after? (start cs : List Char) : Option (List Char) :=
  if start.isPrefixOf cs then some (cs.drop start.length) else none

/-- The text from the first boundary line on, after its opening. Lines
before it may hold anything but a NUL character. -/
def afterOpening? : List Char → Option (List Char)
  | [] => none
  | '\n' :: rest =>
    match after? blockOpening rest with
    | some label => some label
    | none => afterOpening? rest
  | c :: rest => if c == '\x00' then none else afterOpening? rest

/-- A character of a label. -/
def isLabelChar (c : Char) : Bool := ' ' ≤ c && c ≤ '~' && c != '-'

/-- The label of a block and the text between its boundary lines. -/
def block? (cs : List Char) : Option (String × List Char) := do
  let labelled ← match after? blockOpening cs with
    | some rest => some rest
    | none => afterOpening? cs
  let label := labelled.takeWhile isLabelChar
  let body ← after? dashes (labelled.dropWhile isLabelChar)
  let body ← afterLineEnd? body
  let backwards := body.reverse
  let backwards := (beforeLineEnd? backwards).getD backwards
  let backwards ← after? (blockEnding ++ label ++ dashes).reverse backwards
  let backwards ← beforeLineEnd? backwards
  some (String.ofList label, backwards.reverse)

/-- The characters of lines of 64, of which the last may be shorter. -/
def unwrapped? : Nat → List Char → Option (List Char)
  | 0, _ => none
  | fuel + 1, cs =>
    let rest := cs.drop 64
    if rest.isEmpty then some cs
    else do
      let next ← afterLineEnd? rest
      let more ← unwrapped? fuel next
      some (cs.take 64 ++ more)

/-- The bytes of a block with a certain label. -/
def blockBytes? (label : String) (text : String) : Option (List UInt8) := do
  let (found, body) ← block? text.toList
  let cs ← unwrapped? (body.length + 1) body
  if found == label && !cs.isEmpty then Text.Base64.decode? Text.Base64.standard cs else none

/-! ## The structure -/

/-- Identifier of elliptic curve keys. -/
def curveKeyIdentifier : List UInt8 := [0x2A, 0x86, 0x48, 0xCE, 0x3D, 0x02, 0x01]

/-- Identifier of the curve P-256. -/
def curveIdentifier : List UInt8 := [0x2A, 0x86, 0x48, 0xCE, 0x3D, 0x03, 0x01, 0x07]

/-- The fewest bytes in which the number of a key is written. -/
def leastKeySize : Nat := 24

/-- The key of a number in at most 32 bytes. -/
def keyOfBytes? (bytes : List UInt8) : Option SigningKey :=
  if leastKeySize ≤ bytes.length && bytes.length ≤ 32 then SigningKey.ofNat? (natOfBytes bytes)
  else none

/-- Whether the bytes of a point are those of the public key. -/
def agrees (key : SigningKey) (bytes : List UInt8) : Bool :=
  match key.publicPoint? with
  | some p => bytes == p.bytes || bytes == p.shortBytes
  | none => false

/-- The key in a curve key structure. -/
def curveKey? (bytes : List UInt8) : Option SigningKey := do
  let content ← Der.only? Der.sequenceTag bytes
  let (version, rest) ← Der.readTagged Der.integerTag content
  let (number, rest) ← Der.readTagged Der.bytesTag rest
  let (curve, rest) ← Der.readField true 0 (rest.length + 1) rest
  let (point, rest) ← Der.readField true 1 (rest.length + 1) rest
  if version != [1] || !rest.isEmpty then none
  else do
    match curve with
    | some c => if (Der.only? Der.identifierTag c).any Der.isIdentifier then pure () else none
    | none => pure ()
    let key ← keyOfBytes? number
    match point with
    | none => some key
    | some field => do
      let bits ← Der.only? Der.bitsTag field
      let encoded ← Der.wholeBits? bits
      if agrees key encoded then some key else none

/-- Whether what follows are fields around one element each. -/
def areFields : Nat → List UInt8 → Bool
  | 0, _ => false
  | fuel + 1, bytes =>
    if bytes.isEmpty then true
    else match Der.readElement bytes with
      | some (e, rest) =>
        Der.isField e.tag && e.tag % 64 ≥ 32
          && (Der.readElement e.content).any (·.2.isEmpty) && areFields fuel rest
      | none => false

/-- The key in a private key structure. -/
def keyOfDer? (bytes : List UInt8) : Option SigningKey := do
  let content ← Der.only? Der.sequenceTag bytes
  let (version, rest) ← Der.readTagged Der.integerTag content
  let (algorithm, rest) ← Der.readTagged Der.sequenceTag rest
  let (inner, rest) ← Der.readTagged Der.bytesTag rest
  let (point, rest) ← Der.readField false 1 (rest.length + 1) rest
  let (kind, parameters) ← Der.readTagged Der.identifierTag algorithm
  let curve ← Der.only? Der.identifierTag parameters
  let versioned := match point with
    | some bits => version == [1] && (Der.wholeBits? bits).isSome
    | none => version == [0]
  if versioned && areFields (rest.length + 1) rest && kind == curveKeyIdentifier
      && curve == curveIdentifier then
    curveKey? inner
  else none

/-- The key in a text. -/
def SigningKey.ofText? (text : String) : Option SigningKey :=
  (blockBytes? "PRIVATE KEY" text).bind keyOfDer?

end Runwatch.Crypto
