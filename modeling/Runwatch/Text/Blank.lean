/-
Runwatch.Text.Blank — white space and trimming.

A character is blank when Unicode gives it the property White_Space.
Trimming removes the blank characters at both ends of a text and no other.
-/

namespace Runwatch.Text

/-- The Unicode property White_Space. -/
def isBlank (c : Char) : Bool :=
  let n := c.toNat
  (9 ≤ n && n ≤ 13) || n == 0x20 || n == 0x85 || n == 0xA0 || n == 0x1680
    || (0x2000 ≤ n && n ≤ 0x200A) || n == 0x2028 || n == 0x2029 || n == 0x202F
    || n == 0x205F || n == 0x3000

/-- `cs` without the blanks at its start. -/
def trimLeft (cs : List Char) : List Char := cs.dropWhile isBlank

/-- `cs` without the blanks at its end. -/
def trimRight (cs : List Char) : List Char := (cs.reverse.dropWhile isBlank).reverse

/-- `cs` without the blanks at either end. -/
def trimBlanks (cs : List Char) : List Char := trimRight (trimLeft cs)

/-- `s` without the blanks at either end. -/
def trimmed (s : String) : String := String.ofList (trimBlanks s.toList)

/-- `s` trimmed, if that leaves anything. -/
def nonBlank? (s : String) : Option String :=
  let t := trimmed s
  if t.isEmpty then none else some t

end Runwatch.Text
