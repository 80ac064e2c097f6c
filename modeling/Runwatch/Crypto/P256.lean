/-
Runwatch.Crypto.P256 — the elliptic curve P-256.

The curve is `y² = x³ - 3x + b` over a prime field. Points are added in
projective form, `(x / z², y / z³)`, which needs no division; `z = 0` is the
point at infinity.
-/
import Runwatch.Crypto.Sha256

namespace Runwatch.Crypto.P256

/-- The prime of the field. -/
def prime : Nat := 0xffffffff00000001000000000000000000000000ffffffffffffffffffffffff

/-- The prime number of points of the curve. -/
def order : Nat := 0xffffffff00000000ffffffffffffffffbce6faada7179e84f3b9cac2fc632551

/-- A difference modulo `m` of numbers below `m`. -/
def subMod (m a b : Nat) : Nat := (a + m - b) % m

/-- A power modulo `m`; `bits` is at least the length of the exponent. -/
def powMod (m b : Nat) : Nat → Nat → Nat
  | 0, _ => 1 % m
  | bits + 1, e =>
    let half := powMod m b bits (e / 2)
    let square := half * half % m
    if e % 2 == 1 then square * b % m else square

/-- The inverse modulo a prime of 256 bits. -/
def inverse (m a : Nat) : Nat := powMod m a 256 (m - 2)

/-- A point in projective form. -/
structure Projective where
  x : Nat
  y : Nat
  z : Nat
  deriving DecidableEq, Repr

/-- A point of the curve with its coordinates. -/
structure Point where
  x : Nat
  y : Nat
  deriving DecidableEq, Repr

/-- The point that generates the group. -/
def generator : Point :=
  ⟨0x6b17d1f2e12c4247f8bce6e563a440f277037d812deb33a0f4a13945d898c296,
   0x4fe342e2fe1a7f9b8ee7eb4a7c0f9e162bce33576b315ececbb6406837bf51f5⟩

namespace Projective

/-- The point at infinity. -/
def infinity : Projective := ⟨1, 1, 0⟩

/-- A point with `z = 1`. -/
def ofPoint (p : Point) : Projective := ⟨p.x, p.y, 1⟩

/-- Twice a point. -/
def double (p : Projective) : Projective :=
  let m := prime
  let delta := p.z * p.z % m
  let gamma := p.y * p.y % m
  let beta := p.x * gamma % m
  let alpha := 3 * (subMod m p.x delta * ((p.x + delta) % m)) % m
  let x := subMod m (alpha * alpha % m) (8 * beta % m)
  let sum := (p.y + p.z) % m
  let z := subMod m (subMod m (sum * sum % m) gamma) delta
  let y := subMod m (alpha * subMod m (4 * beta % m) x % m) (8 * (gamma * gamma) % m)
  ⟨x, y, z⟩

/-- The sum of two points. -/
def add (p q : Projective) : Projective :=
  if p.z == 0 then q
  else if q.z == 0 then p
  else
    let m := prime
    let pz2 := p.z * p.z % m
    let qz2 := q.z * q.z % m
    let u := p.x * qz2 % m
    let s := p.y * (q.z * qz2 % m) % m
    let h := subMod m (q.x * pz2 % m) u
    let r := subMod m (q.y * (p.z * pz2 % m) % m) s
    if h == 0 then (if r == 0 then p.double else infinity)
    else
      let h2 := h * h % m
      let h3 := h * h2 % m
      let v := u * h2 % m
      let x := subMod m (subMod m (r * r % m) h3) (2 * v % m)
      let y := subMod m (r * subMod m v x % m) (s * h3 % m)
      ⟨x, y, h * (p.z * q.z % m) % m⟩

/-- The multiple of a point; `bits` is at least the length of the factor. -/
def scale (p : Projective) : Nat → Nat → Projective
  | 0, _ => infinity
  | bits + 1, n =>
    let twice := (p.scale bits (n / 2)).double
    if n % 2 == 1 then twice.add p else twice

/-- The coordinates of a point other than infinity. -/
def toPoint? (p : Projective) : Option Point :=
  if p.z == 0 then none
  else
    let i := inverse prime p.z
    let i2 := i * i % prime
    some ⟨p.x * i2 % prime, p.y * (i * i2 % prime) % prime⟩

end Projective

/-- The multiple of the generator. -/
def multiple? (n : Nat) : Option Point := ((Projective.ofPoint generator).scale 256 n).toPoint?

/-- The bytes of a point with both coordinates. -/
def Point.bytes (p : Point) : List UInt8 := 4 :: bytesOfNat 32 p.x ++ bytesOfNat 32 p.y

/-- The bytes of a point with one coordinate and the parity of the other. -/
def Point.shortBytes (p : Point) : List UInt8 :=
  UInt8.ofNat (2 + p.y % 2) :: bytesOfNat 32 p.x

end Runwatch.Crypto.P256
