/-
Runwatch.Double.Basic — binary floating point numbers of 64 bits.

A double is its bit pattern. Arithmetic is exact: a finite double is
`significand * 2 ^ scale`, an operation is done on such ratios of natural
numbers, and `ofRatio?` rounds the result once, to nearest, a tie to the
even significand. So a statement about a double is one about natural
numbers.
-/

namespace Runwatch

/-- A double, as its bits. -/
structure Double where
  bits : UInt64
  deriving DecidableEq, Repr, Inhabited

namespace Double

/-- How many fractions there are: the weight of the exponent field. -/
abbrev fractions : Nat := 4503599627370496

/-- Whether the sign bit is set. -/
def isNegative (d : Double) : Bool := d.bits.toNat ≥ 2048 * fractions

/-- The exponent field. -/
def exponentField (d : Double) : Nat := d.bits.toNat / fractions % 2048

/-- The fraction field. -/
def fractionField (d : Double) : Nat := d.bits.toNat % fractions

/-- Neither an infinity nor a NaN. -/
def isFinite (d : Double) : Bool := d.exponentField != 2047

/-- The whole number that a power of two scales to the absolute value. -/
def significand (d : Double) : Nat :=
  if d.exponentField == 0 then d.fractionField else fractions + d.fractionField

/-- The power of two that scales the significand. -/
def scale (d : Double) : Int :=
  if d.exponentField == 0 then -1074 else (d.exponentField : Int) - 1075

/-- The absolute value as a numerator and a denominator. -/
def magnitude (d : Double) : Nat × Nat :=
  if d.scale ≥ 0 then (d.significand * Nat.pow 2 d.scale.toNat, 1)
  else (d.significand, Nat.pow 2 (-d.scale).toNat)

/-- Zero of either sign. -/
def isZero (d : Double) : Bool := d.exponentField == 0 && d.fractionField == 0

/-- The same number with the other sign. -/
def neg (d : Double) : Double := ⟨d.bits ^^^ 0x8000000000000000⟩

/-- Positive zero. -/
def zero : Double := ⟨0⟩

/-- The quotient of `num` by `den`, rounded to nearest, a tie to even. -/
def roundQuotient (num den : Nat) : Nat :=
  let q := num / den
  let r := num % den
  if 2 * r < den then q else if den < 2 * r then q + 1 else q + q % 2

/-- `num / den` times `2 ^ (-scale)`, as a quotient. -/
def scaledQuotient (num den : Nat) (scale : Int) : Nat × Nat :=
  if scale ≥ 0 then (num, den * Nat.pow 2 scale.toNat)
  else (num * Nat.pow 2 (-scale).toNat, den)

/-- The scale at which `num / den` has 53 bits before the point, or the
least scale there is. -/
def scaleOf (num den : Nat) : Int :=
  let guess := (Nat.log2 num : Int) - (Nat.log2 den : Int) - 52
  let (n, d) := scaledQuotient num den guess
  let fitted := if n < fractions * d then guess - 1 else guess
  max fitted (-1074)

/-- The double nearest to `num / den`; none where it would be infinite. -/
def ofRatio? (num den : Nat) : Option Double :=
  if num == 0 then some zero
  else
    let scale := scaleOf num den
    let (n, d) := scaledQuotient num den scale
    let m := roundQuotient n d
    if m < fractions then some ⟨UInt64.ofNat m⟩
    else
      let bits := (scale + 1075).toNat * fractions + (m - fractions)
      if bits < 2047 * fractions then some ⟨UInt64.ofNat bits⟩ else none

/-- The double nearest to a natural number. -/
def ofNat? (n : Nat) : Option Double := ofRatio? n 1

/-- Product of two finite magnitudes. -/
def mul? (a b : Double) : Option Double :=
  ofRatio? (a.magnitude.1 * b.magnitude.1) (a.magnitude.2 * b.magnitude.2)

/-- Quotient of two finite magnitudes, the second not zero. -/
def div? (a b : Double) : Option Double :=
  ofRatio? (a.magnitude.1 * b.magnitude.2) (a.magnitude.2 * b.magnitude.1)

/-- The whole part of the absolute value. -/
def wholePart (d : Double) : Nat := d.magnitude.1 / d.magnitude.2

end Double

end Runwatch
