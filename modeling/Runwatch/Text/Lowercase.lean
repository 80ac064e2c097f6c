/-
Runwatch.Text.Lowercase — full lowercase of a text.

Every letter takes its lowercase of the Unicode standard. Two letters need
more than their own table entry: the dotted capital I becomes two
characters, and a capital sigma that ends a word takes its final form.
-/
import Runwatch.Text.CaseTable

namespace Runwatch.Text

/-- The one-letter lowercase of code point `n`, if a run holds it. -/
def lowerCode? (n : Nat) : Option Nat :=
  lowercaseRuns.findSome? fun (first, last, stride, image) =>
    if first ≤ n && n ≤ last && (n - first) % stride == 0 then some (image + (n - first)) else none

/-- The lowercase of a character outside any word. -/
def lowerChar (c : Char) : List Char :=
  if c.toNat < 0x80 then [c.toLower]
  else if c.toNat == 0x130 then ['i', '\u0307']
  else match lowerCode? c.toNat with
    | some n => [Char.ofNat n]
    | none => [c]

/-- Whether the nearest character that is not case-ignorable is cased. -/
def meetsCased : List Char → Bool
  | [] => false
  | c :: rest =>
    if inRanges caseIgnorableRanges c.toNat then meetsCased rest
    else inRanges casedRanges c.toNat

/-- Lowercase of `cs`, which follows the reversed text `before`. -/
def lowerFrom (before : List Char) : List Char → List Char
  | [] => []
  | c :: rest =>
    let image :=
      if c == 'Σ' then
        if meetsCased before && !meetsCased rest then ['ς'] else ['σ']
      else lowerChar c
    image ++ lowerFrom (c :: before) rest

/-- The lowercase of a text. -/
def lowercase (s : String) : String := String.ofList (lowerFrom [] s.toList)

end Runwatch.Text
