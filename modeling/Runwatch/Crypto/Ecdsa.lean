/-
Runwatch.Crypto.Ecdsa — signatures on P-256 with SHA-256.

Signing draws its secret number from the key and the message, so a message
has one signature under a key. A signature is the pair `r`, `s` of numbers
of 32 bytes each; `s` is taken as it comes.
-/
import Runwatch.Crypto.P256

namespace Runwatch.Crypto

open P256 (order)

/-- A private key. -/
structure SigningKey where
  scalar : Nat
  scalar_pos : 0 < scalar
  scalar_lt : scalar < order

/-- The key of a number in range. -/
def SigningKey.ofNat? (n : Nat) : Option SigningKey :=
  if h : 0 < n ∧ n < order then some ⟨n, h.1, h.2⟩ else none

/-- The public key of a private one. -/
def SigningKey.publicPoint? (k : SigningKey) : Option P256.Point := P256.multiple? k.scalar

/-- A signature. -/
structure Signature where
  r : Nat
  s : Nat
  deriving DecidableEq, Repr

/-- The 64 bytes of a signature. -/
def Signature.bytes (g : Signature) : List UInt8 := bytesOfNat 32 g.r ++ bytesOfNat 32 g.s

/-- The signature that 64 bytes write. -/
def Signature.ofBytes? (bytes : List UInt8) : Option Signature :=
  if bytes.length == 64 then some ⟨natOfBytes (bytes.take 32), natOfBytes (bytes.drop 32)⟩ else none

/-- The number that a message is signed as. -/
def digestNumber (message : List UInt8) : Nat := natOfBytes (sha256 message) % order

/-- The state from which secret numbers are drawn. -/
structure Drawer where
  key : List UInt8
  value : List UInt8

namespace Drawer

/-- Mixes data into the state, marked with a byte. -/
def mix (d : Drawer) (mark : UInt8) (data : List UInt8) : Drawer :=
  let key := hmac d.key (d.value ++ mark :: data)
  ⟨key, hmac key d.value⟩

/-- The state for a key and a digest. -/
def start (key : SigningKey) (digest : Nat) : Drawer :=
  let seed := bytesOfNat 32 key.scalar ++ bytesOfNat 32 digest
  let d : Drawer := ⟨List.replicate 32 0, List.replicate 32 1⟩
  (d.mix 0 seed).mix 1 seed

/-- Draws a number in range; `tries` bounds the attempts. -/
def draw? : Nat → Drawer → Option Nat
  | 0, _ => none
  | tries + 1, d =>
    let value := hmac d.key d.value
    let n := natOfBytes value
    if 0 < n && n < order then some n else draw? tries (mix ⟨d.key, value⟩ 0 [])

end Drawer

/-- How often a secret number is drawn before signing is given up. -/
def maxTries : Nat := 64

/-- The signature of a digest with a secret number; none for the few
numbers that make half of it zero. -/
def signWith? (key : SigningKey) (digest secret : Nat) : Option Signature := do
  let p ← P256.multiple? secret
  let r := p.x % order
  let s := P256.inverse order secret * ((digest + r * key.scalar) % order) % order
  if r == 0 || s == 0 then none else some ⟨r, s⟩

/-- The signature of a message. -/
def SigningKey.sign? (key : SigningKey) (message : List UInt8) : Option Signature := do
  let digest := digestNumber message
  let secret ← (Drawer.start key digest).draw? maxTries
  signWith? key digest secret

/-- Whether a signature of a message was made with the key of a point. -/
def verifies (p : P256.Point) (message : List UInt8) (g : Signature) : Bool :=
  if 0 < g.r && g.r < order && 0 < g.s && g.s < order then
    let w := P256.inverse order g.s
    let u := digestNumber message * w % order
    let v := g.r * w % order
    let sum := ((P256.Projective.ofPoint P256.generator).scale 256 u).add
      ((P256.Projective.ofPoint p).scale 256 v)
    match sum.toPoint? with
    | some q => q.x % order == g.r
    | none => false
  else false

end Runwatch.Crypto
