/-
Runwatch.Net.Punycode — labels of a domain in ASCII.

A label keeps its ASCII characters, then a hyphen if there are any, and
then tells in order of code points where the others go: each as the
distance from the last, a number in base 36 whose digits have thresholds
that follow the sizes seen so far.
-/
namespace Runwatch.Net.Punycode

/-- The digit of a value below 36. -/
def digit (n : Nat) : Char := Char.ofNat (if n < 26 then 97 + n else 22 + n)

/-- The value of a digit. -/
def digitValue? (c : Char) : Option Nat :=
  if 'a' ≤ c ∧ c ≤ 'z' then some (c.toNat - 97)
  else if 'A' ≤ c ∧ c ≤ 'Z' then some (c.toNat - 65)
  else if '0' ≤ c ∧ c ≤ '9' then some (c.toNat - 22)
  else none

/-- The threshold of the digit at weight `k`. -/
def threshold (bias k : Nat) : Nat := max 1 (min 26 (k - bias))

/-- Divides a distance until it is small; `k` counts the weights. -/
def shrink : Nat → Nat → Nat → Nat
  | 0, k, _ => k
  | fuel + 1, k, delta =>
    if 455 < delta then shrink fuel (k + 36) (delta / 35) else k + 36 * delta / (delta + 38)

/-- The bias after a distance. -/
def adapt (delta count : Nat) (first : Bool) : Nat :=
  let delta := if first then delta / 700 else delta / 2
  shrink (delta + 1) 0 (delta + delta / count)

/-- The digits of a distance. -/
def distance (bias : Nat) : Nat → Nat → Nat → List Char
  | 0, _, _ => []
  | fuel + 1, k, q =>
    let t := threshold bias k
    if q < t then [digit q]
    else digit (t + (q - t) % (36 - t)) :: distance bias fuel (k + 36) ((q - t) / (36 - t))

/-- The state of writing: the distance so far, the bias, how many
characters are placed, and the digits written. -/
structure Progress where
  delta : Nat
  bias : Nat
  placed : Nat
  first : Bool
  written : List Char

/-- Passes one character while those with code point `n` are placed. -/
def Progress.pass (n : Nat) (p : Progress) (c : Char) : Progress :=
  if c.toNat < n then { p with delta := p.delta + 1 }
  else if c.toNat == n then
    { delta := 0
      bias := adapt p.delta (p.placed + 1) p.first
      placed := p.placed + 1
      first := false
      written := p.written ++ distance p.bias (p.delta + 1) 36 p.delta }
  else p

/-- Places the characters of the code points that are left, in order. -/
def place (label : List Char) : List Nat → Nat → Progress → Progress
  | [], _, p => p
  | m :: rest, n, p =>
    let p := { p with delta := p.delta + (m - n) * (p.placed + 1) }
    let p := label.foldl (Progress.pass m) p
    place label rest (m + 1) { p with delta := p.delta + 1 }

/-- Inserts a number into ascending ones, once. -/
def insertOnce (n : Nat) : List Nat → List Nat
  | [] => [n]
  | m :: rest => if n < m then n :: m :: rest else if n == m then m :: rest else m :: insertOnce n rest

/-- The ASCII form of a label. -/
def encode (label : List Char) : List Char :=
  let basic := label.filter fun c => c.toNat < 0x80
  let others := (label.filter fun c => 0x80 ≤ c.toNat).foldl (fun ns c => insertOnce c.toNat ns) []
  let kept := if basic.isEmpty then [] else basic ++ ['-']
  kept ++ (place label others 0x80 ⟨0, 72, basic.length, true, []⟩).written

/-- Reads a distance: its value on top of `i`, and the rest. -/
def readDistance (bias : Nat) : Nat → Nat → Nat → List Char → Option (Nat × List Char)
  | _, _, _, [] => none
  | k, weight, i, c :: rest => do
    let d ← digitValue? c
    let t := threshold bias k
    if d < t then some (i + d * weight, rest)
    else readDistance bias (k + 36) (weight * (36 - t)) (i + d * weight) rest

/-- Reads distances and puts their characters into the label. -/
def readPlaces : Nat → Nat → Nat → Nat → List Char → List Char → Option (List Char)
  | 0, _, _, _, _, _ => none
  | fuel + 1, n, i, bias, label, cs =>
    if cs.isEmpty then some label
    else do
      let (j, rest) ← readDistance bias 36 1 i cs
      let count := label.length + 1
      let point := n + j / count
      if 0x110000 ≤ point || (0xD800 ≤ point && point < 0xE000) then none
      else
        let at_ := j % count
        readPlaces fuel point (at_ + 1) (adapt (j - i) count (i == 0))
          (label.take at_ ++ Char.ofNat point :: label.drop at_) rest

/-- The label of an ASCII form. -/
def decode? (cs : List Char) : Option (List Char) :=
  let tail := (cs.reverse.takeWhile (· != '-')).reverse
  let basic := cs.take (cs.length - tail.length - 1)
  readPlaces (cs.length + 1) 0x80 0 72 basic tail

end Runwatch.Net.Punycode
