/-
Runwatch.Text.Decimal — unsigned decimal numbers.

`decimal` writes a number without leading zeros. `natOfDigits?` reads any
non-empty run of digits, and `word64?` reads a number that fits into 64
bits, which may carry a plus sign.
-/

namespace Runwatch.Text

/-- One of the ten ASCII digits. -/
def isDigit (c : Char) : Bool := '0' ≤ c && c ≤ '9'

/-- The value of a digit. -/
def digitValue (c : Char) : Nat := c.toNat - 48

/-- The number that a run of digits writes after the number `acc`. -/
def natOfDigits (acc : Nat) : List Char → Nat
  | [] => acc
  | c :: rest => natOfDigits (10 * acc + digitValue c) rest

/-- The number that a text of digits writes. -/
def natOfDigits? (cs : List Char) : Option Nat :=
  if cs.isEmpty || !cs.all isDigit then none else some (natOfDigits 0 cs)

/-- A decimal number of at most 64 bits, with an optional plus sign. -/
def word64? (cs : List Char) : Option UInt64 :=
  let digits := match cs with
    | '+' :: rest => rest
    | _ => cs
  match natOfDigits? digits with
  | some n => if n < UInt64.size then some (UInt64.ofNat n) else none
  | none => none

/-- The digits of `n` in front of `rest`, least significant last. `fuel`
bounds the number of digits. -/
def decimalOnto : Nat → Nat → List Char → List Char
  | 0, _, rest => rest
  | fuel + 1, n, rest =>
    let rest := Char.ofNat (48 + n % 10) :: rest
    if n < 10 then rest else decimalOnto fuel (n / 10) rest

/-- The decimal digits of `n`. -/
def decimalChars (n : Nat) : List Char := decimalOnto (n + 1) n []

/-- The decimal text of `n`. -/
def decimal (n : Nat) : String := String.ofList (decimalChars n)

/-- The decimal text of an integer. -/
def signedDecimal (i : Int) : String :=
  if i < 0 then "-" ++ decimal i.natAbs else decimal i.natAbs

/-- `n` in at least `width` digits, zeros in front. -/
def padded (width n : Nat) : String :=
  let digits := decimalChars n
  String.ofList (List.replicate (width - digits.length) '0' ++ digits)

end Runwatch.Text
