/-
Runwatch.Double.Shortest — the fewest decimal digits that denote a double.

The reals that round to a double form an interval around it. For one digit,
two, three and so on, the two multiples of the matching power of ten next
to the value are tried; the first count of digits with a hit wins, of two
hits the nearer, and of two equally near the even one. Seventeen digits
always suffice.
-/
import Runwatch.Double.Basic
import Runwatch.Text.Decimal

namespace Runwatch

/-- A decimal `digits * 10 ^ exponent`. -/
structure Scientific where
  digits : Nat
  exponent : Int
  deriving DecidableEq, Repr

/-- A value and the ends of the interval that rounds to it, over one
denominator. `closed` tells whether the ends belong to it. -/
structure RoundingInterval where
  low : Nat
  value : Nat
  high : Nat
  denominator : Nat
  closed : Bool

/-- The interval of reals that round to a finite double other than zero. -/
def Double.interval (d : Double) : RoundingInterval :=
  let m := d.significand
  let below := if d.fractionField == 0 && 1 < d.exponentField then 1 else 2
  let quarter := d.scale - 2
  let (factor, denominator) :=
    if quarter ≥ 0 then (Nat.pow 2 quarter.toNat, 1) else (1, Nat.pow 2 (-quarter).toNat)
  { low := (4 * m - below) * factor
    value := 4 * m * factor
    high := (4 * m + 2) * factor
    denominator := denominator
    closed := m % 2 == 0 }

/-- Whether the number `n / den` lies in the interval `i`. -/
def RoundingInterval.contains (i : RoundingInterval) (n den : Nat) : Bool :=
  let lowSide := i.low * den
  let highSide := i.high * den
  let x := n * i.denominator
  if i.closed then lowSide ≤ x && x ≤ highSide else lowSide < x && x < highSide

/-- Counts how often `n` must be multiplied by ten to reach `den`. -/
def tensUp : Nat → Nat → Nat → Nat
  | 0, _, _ => 0
  | fuel + 1, n, den => if den ≤ n then 0 else tensUp fuel (10 * n) den + 1

/-- The exponent of the first decimal digit of `n / den`. -/
def leadingExponent (n den : Nat) : Int :=
  if den ≤ n then ((Text.decimalChars (n / den)).length : Int) - 1
  else -(tensUp 400 n den : Int)

/-- The hit in `i` among the two multiples of `10 ^ exponent` next to the
value. -/
def RoundingInterval.hit? (i : RoundingInterval) (exponent : Int) : Option Nat :=
  let up := if exponent ≥ 0 then 1 else Nat.pow 10 (-exponent).toNat
  let down := if exponent ≥ 0 then Nat.pow 10 exponent.toNat else 1
  let scaled := i.value * up
  let grid := i.denominator * down
  let d := scaled / grid
  let rest := scaled % grid
  let lower := d != 0 && i.contains (d * down) up
  let upper := i.contains ((d + 1) * down) up
  if lower && upper then
    if 2 * rest < grid then some d
    else if grid < 2 * rest then some (d + 1)
    else some (d + d % 2)
  else if lower then some d
  else if upper then some (d + 1)
  else none

/-- Tries `count` further digit counts, the next of which ends at
`exponent`. -/
def RoundingInterval.search (i : RoundingInterval) : Nat → Int → Scientific
  | 0, exponent => ⟨0, exponent⟩
  | count + 1, exponent =>
    match i.hit? exponent with
    | some d => ⟨d, exponent⟩
    | none => i.search count (exponent - 1)

/-- Moves trailing zeros of the digits into the exponent. -/
def Scientific.stripZeros : Nat → Scientific → Scientific
  | 0, s => s
  | fuel + 1, s =>
    if s.digits != 0 && s.digits % 10 == 0 then
      stripZeros fuel ⟨s.digits / 10, s.exponent + 1⟩
    else s

/-- The shortest decimal of a finite double other than zero, without its
sign. -/
def Double.shortest (d : Double) : Scientific :=
  let i := d.interval
  (i.search 17 (leadingExponent i.value i.denominator)).stripZeros 20

/-- How a format writes a decimal: the positions of the point for which it
spells all digits out; any other number gets an exponent. -/
structure PointRange where
  least : Int
  greatest : Int

/-- The digits of a decimal with the point spelled out. -/
def Scientific.positional (s : Scientific) : List Char :=
  let ds := Text.decimalChars s.digits
  let point := (ds.length : Int) + s.exponent
  if s.exponent ≥ 0 then ds ++ List.replicate s.exponent.toNat '0' ++ ['.', '0']
  else if point > 0 then ds.take point.toNat ++ '.' :: ds.drop point.toNat
  else '0' :: '.' :: List.replicate (-point).toNat '0' ++ ds

/-- The digits of a decimal with an exponent. -/
def Scientific.exponential (s : Scientific) : List Char :=
  let ds := Text.decimalChars s.digits
  let power := (ds.length : Int) + s.exponent - 1
  let mantissa := match ds with
    | [] => []
    | [d] => [d]
    | d :: rest => d :: '.' :: rest
  mantissa ++ 'e' :: (Text.signedDecimal power).toList

/-- The text of a double. -/
def Double.chars (range : PointRange) (d : Double) : List Char :=
  let sign := if d.isNegative then ['-'] else []
  if !d.isFinite then
    if d.fractionField == 0 then sign ++ ['i', 'n', 'f'] else ['N', 'a', 'N']
  else if d.isZero then sign ++ ['0', '.', '0']
  else
    let s := d.shortest
    let point := ((Text.decimalChars s.digits).length : Int) + s.exponent
    sign ++ (if range.least ≤ point && point ≤ range.greatest then s.positional else s.exponential)

end Runwatch
