/-
Runwatch.Text.Range — character classes given as code point ranges.

A class of the Unicode standard is a list of closed ranges. Membership is
one pass over the list, so a class can be searched by `decide` as well as
run.
-/

namespace Runwatch.Text

/-- A closed range of code points. -/
abbrev Range := Nat × Nat

/-- Whether code point `n` lies in one of the ranges. -/
def inRanges (ranges : List Range) (n : Nat) : Bool :=
  ranges.any fun r => r.1 ≤ n && n ≤ r.2

end Runwatch.Text
