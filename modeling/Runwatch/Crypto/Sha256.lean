/-
Runwatch.Crypto.Sha256 — the hash function SHA-256 and the keyed hash made
of it.

A message is padded to blocks of 64 bytes. Each block is spread to 64 words
and mixed into a state of eight words; the last state is the digest.
-/
namespace Runwatch.Crypto

/-- The state between blocks. -/
structure HashState where
  a : UInt32
  b : UInt32
  c : UInt32
  d : UInt32
  e : UInt32
  f : UInt32
  g : UInt32
  h : UInt32
  deriving DecidableEq, Repr

/-- The state before the first block. -/
def HashState.start : HashState :=
  ⟨0x6a09e667, 0xbb67ae85, 0x3c6ef372, 0xa54ff53a, 0x510e527f, 0x9b05688c, 0x1f83d9ab, 0x5be0cd19⟩

/-- The words that the rounds add. -/
def roundWords : List UInt32 :=
  [0x428a2f98, 0x71374491, 0xb5c0fbcf, 0xe9b5dba5, 0x3956c25b, 0x59f111f1, 0x923f82a4, 0xab1c5ed5,
   0xd807aa98, 0x12835b01, 0x243185be, 0x550c7dc3, 0x72be5d74, 0x80deb1fe, 0x9bdc06a7, 0xc19bf174,
   0xe49b69c1, 0xefbe4786, 0x0fc19dc6, 0x240ca1cc, 0x2de92c6f, 0x4a7484aa, 0x5cb0a9dc, 0x76f988da,
   0x983e5152, 0xa831c66d, 0xb00327c8, 0xbf597fc7, 0xc6e00bf3, 0xd5a79147, 0x06ca6351, 0x14292967,
   0x27b70a85, 0x2e1b2138, 0x4d2c6dfc, 0x53380d13, 0x650a7354, 0x766a0abb, 0x81c2c92e, 0x92722c85,
   0xa2bfe8a1, 0xa81a664b, 0xc24b8b70, 0xc76c51a3, 0xd192e819, 0xd6990624, 0xf40e3585, 0x106aa070,
   0x19a4c116, 0x1e376c08, 0x2748774c, 0x34b0bcb5, 0x391c0cb3, 0x4ed8aa4a, 0x5b9cca4f, 0x682e6ff3,
   0x748f82ee, 0x78a5636f, 0x84c87814, 0x8cc70208, 0x90befffa, 0xa4506ceb, 0xbef9a3f7, 0xc67178f2]

/-- Rotates a word to the right by `1 ≤ n ≤ 31` bits. -/
def rotate (x : UInt32) (n : UInt32) : UInt32 := (x >>> n) ||| (x <<< (32 - n))

/-- The word that follows the last sixteen, which are given last first. -/
def nextWord (last : List UInt32) : UInt32 :=
  let x := last.getD 14 0
  let y := last.getD 1 0
  last.getD 15 0 + (rotate x 7 ^^^ rotate x 18 ^^^ (x >>> 3)) + last.getD 6 0
    + (rotate y 17 ^^^ rotate y 19 ^^^ (y >>> 10))

/-- Spreads the words of a block, last first, by `count` more. -/
def spread : Nat → List UInt32 → List UInt32
  | 0, words => words
  | count + 1, words => spread count (nextWord words :: words)

/-- One round with its word of the block and its own word. -/
def HashState.round (s : HashState) (w k : UInt32) : HashState :=
  let choice := (s.e &&& s.f) ^^^ (~~~s.e &&& s.g)
  let majority := (s.a &&& s.b) ^^^ (s.a &&& s.c) ^^^ (s.b &&& s.c)
  let t := s.h + (rotate s.e 6 ^^^ rotate s.e 11 ^^^ rotate s.e 25) + choice + k + w
  let u := (rotate s.a 2 ^^^ rotate s.a 13 ^^^ rotate s.a 22) + majority
  ⟨t + u, s.a, s.b, s.c, s.d + t, s.e, s.f, s.g⟩

/-- The word-by-word sum of two states. -/
def HashState.add (s t : HashState) : HashState :=
  ⟨s.a + t.a, s.b + t.b, s.c + t.c, s.d + t.d, s.e + t.e, s.f + t.f, s.g + t.g, s.h + t.h⟩

/-- Bytes as words, the most significant byte first. -/
def wordsOf : List UInt8 → List UInt32
  | a :: b :: c :: d :: rest =>
    UInt32.ofNat (a.toNat * 16777216 + b.toNat * 65536 + c.toNat * 256 + d.toNat) :: wordsOf rest
  | _ => []

/-- Mixes a block of 64 bytes into a state. -/
def HashState.absorb (s : HashState) (block : List UInt8) : HashState :=
  let words := (spread 48 (wordsOf block).reverse).reverse
  s.add ((words.zip roundWords).foldl (fun s (w, k) => s.round w k) s)

/-- The `count` low bytes of a number, the most significant first. -/
def bytesOfNat : Nat → Nat → List UInt8
  | 0, _ => []
  | count + 1, n => bytesOfNat count (n / 256) ++ [UInt8.ofNat (n % 256)]

/-- The number that bytes write, the most significant first. -/
def natOfBytes (bytes : List UInt8) : Nat := bytes.foldl (fun acc b => 256 * acc + b.toNat) 0

/-- A message with its padding: a one bit, zeros, and its length in bits. -/
def padded (message : List UInt8) : List UInt8 :=
  let size := message.length
  message ++ 0x80 :: List.replicate ((119 - size % 64) % 64) 0 ++ bytesOfNat 8 (8 * size)

/-- Mixes in `count` blocks. -/
def absorbBlocks : Nat → HashState → List UInt8 → HashState
  | 0, s, _ => s
  | count + 1, s, bytes => absorbBlocks count (s.absorb (bytes.take 64)) (bytes.drop 64)

/-- The bytes of a state. -/
def HashState.bytes (s : HashState) : List UInt8 :=
  [s.a, s.b, s.c, s.d, s.e, s.f, s.g, s.h].flatMap fun w => bytesOfNat 4 w.toNat

/-- The digest of a message. -/
def sha256 (message : List UInt8) : List UInt8 :=
  let bytes := padded message
  (absorbBlocks (bytes.length / 64) .start bytes).bytes

/-- The digest of a message under a key of at most 64 bytes. -/
def hmac (key message : List UInt8) : List UInt8 :=
  let filled := key ++ List.replicate (64 - key.length) 0
  sha256 (filled.map (· ^^^ 0x5c) ++ sha256 (filled.map (· ^^^ 0x36) ++ message))

end Runwatch.Crypto
