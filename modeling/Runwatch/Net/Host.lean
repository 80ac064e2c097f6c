/-
Runwatch.Net.Host — the host of an address.

With a scheme of the web a host is an IPv6 address in brackets, a domain in
ASCII, or an IPv4 address, which is a domain that ends in a number. With
any other scheme it is a text.
-/
import Runwatch.Net.Percent
import Runwatch.Net.Punycode
import Runwatch.Text.Decimal
import Runwatch.Text.Lowercase

namespace Runwatch.Net

/-- A host. -/
inductive Host where
  | name (text : String)
  | v4 (address : Nat)
  | v6 (pieces : List Nat)
  deriving DecidableEq, Repr

/-! ## IPv4 -/

/-- Reads a number in a base; all characters must be its digits. -/
def numberIn? (base : Nat) (cs : List Char) : Option Nat := do
  let values ← cs.mapM Text.hexValue?
  if values.all (· < base) then some (values.foldl (fun acc v => base * acc + v) 0) else none

/-- A number with the mark of its base. -/
def v4Number? (cs : List Char) : Option Nat :=
  match cs with
  | [] => none
  | ['0'] => some 0
  | '0' :: 'x' :: rest => numberIn? 16 rest
  | '0' :: 'X' :: rest => numberIn? 16 rest
  | '0' :: rest => numberIn? 8 rest
  | cs => numberIn? 10 cs

/-- Whether the last part of a domain is a number, so that the domain has to
be an address. -/
def endsInNumber (cs : List Char) : Bool :=
  let isNumber (part : List Char) : Bool :=
    (!part.isEmpty && part.all Text.isDigit) || (v4Number? part).isSome
  match (cs.splitOn '.').reverse with
  | [] :: [] => false
  | [] :: part :: _ => isNumber part
  | part :: _ => isNumber part
  | [] => false

/-- Parts from the last on, each but the last below 256, as one number. -/
def v4Value? : List Nat → Option Nat
  | [] => none
  | last :: others =>
    if others.length ≤ 3 && others.all (· < 256) && last < Nat.pow 256 (4 - others.length) then
      some (others.reverse.foldl (fun acc n => 256 * acc + n) 0 * Nat.pow 256 (4 - others.length) + last)
    else none

/-- The address that a domain is. -/
def v4Address? (cs : List Char) : Option Nat :=
  let parts := match (cs.splitOn '.').reverse with
    | [] :: part :: parts => part :: parts
    | parts => parts
  (parts.mapM v4Number?).bind v4Value?

/-- The text of an IPv4 address. -/
def v4Text (address : Nat) : String :=
  String.intercalate "."
    ([16777216, 65536, 256, 1].map fun weight => Text.decimal (address / weight % 256))

/-! ## IPv6 -/

/-- Reads a decimal number below 256 without zeros in front. -/
def v6Decimal? (cs : List Char) : Option Nat :=
  match cs with
  | '0' :: _ :: _ => none
  | cs => (Text.natOfDigits? cs).bind fun n => if n < 256 then some n else none

/-- The two pieces of an IPv4 address at the end. -/
def v6Tail? (cs : List Char) : Option (List Nat) := do
  match ← (cs.splitOn '.').mapM v6Decimal? with
  | [a, b, c, d] => some [256 * a + b, 256 * c + d]
  | _ => none

/-- Reads pieces on top of `done`, and where pieces are left out. -/
def v6Pieces : Nat → List Nat → Option Nat → List Char → Option (List Nat × Option Nat)
  | 0, _, _, _ => none
  | fuel + 1, done, gap, cs =>
    if cs.isEmpty then some (done, gap)
    else if 8 ≤ done.length then none
    else match cs with
    | ':' :: rest =>
      if gap.isSome then none else v6Pieces fuel (done ++ [0]) (some (done.length + 1)) rest
    | cs =>
      let digits := (cs.take 4).takeWhile fun c => (Text.hexValue? c).isSome
      let rest := cs.drop digits.length
      match numberIn? 16 digits, rest with
      | some n, [] => some (done ++ [n], gap)
      | some n, ':' :: next => if next.isEmpty then none else v6Pieces fuel (done ++ [n]) gap next
      | some _, '.' :: _ =>
        if digits.isEmpty || 6 < done.length then none
        else (v6Tail? cs).map fun tail => (done ++ tail, gap)
      | _, _ => none

/-- The pieces of an IPv6 address. -/
def v6Address? (cs : List Char) : Option (List Nat) := do
  let (done, gap) ← match cs with
    | ':' :: ':' :: rest => v6Pieces (cs.length + 1) [0] (some 1) rest
    | ':' :: _ => none
    | cs => v6Pieces (cs.length + 1) [] none cs
  match gap with
  | some k => some (done.take k ++ List.replicate (8 - done.length) 0 ++ done.drop k)
  | none => if done.length == 8 then some done else none

/-- The first of the longest runs of zeros, as its start and its length. -/
def zeroRun : Nat → List Nat → Nat × Nat
  | _, [] => (0, 0)
  | at_, n :: rest =>
    let own := ((n :: rest).takeWhile (· == 0)).length
    let later := zeroRun (at_ + 1) rest
    if own != 0 && later.2 ≤ own then (at_, own) else later

/-- Pieces with colons between them. -/
def v6Run (pieces : List Nat) : String :=
  String.intercalate ":" (pieces.map fun n => String.ofList (Text.hexDigits n))

/-- The text of an IPv6 address; the first of the longest runs of at least
two zeros is left out. -/
def v6Text (pieces : List Nat) : String :=
  let (start, length) := zeroRun 0 pieces
  if length < 2 then v6Run pieces
  else v6Run (pieces.take start) ++ "::" ++ v6Run (pieces.drop (start + length))

/-! ## Domains -/

/-- A character that no domain holds. -/
def isForbidden (c : Char) : Bool :=
  c.toNat ≤ 0x20 || c.toNat == 0x7F
    || ['#', '%', '/', ':', '<', '>', '?', '@', '[', '\\', ']', '^', '|'].contains c

/-- A character that a domain drops. -/
def isDropped (c : Char) : Bool :=
  let n := c.toNat
  n == 0xAD || n == 0x34F || n == 0x200B || n == 0x2060 || n == 0x2064 || n == 0xFEFF
    || (0x180B ≤ n && n ≤ 0x180D) || (0xFE00 ≤ n && n ≤ 0xFE0F) || (0xE0100 ≤ n && n ≤ 0xE01EF)

/-- The plain form of a character of full width, and the point of an
ideographic one. -/
def plainWidth (c : Char) : Char :=
  let n := c.toNat
  if 0xFF01 ≤ n && n ≤ 0xFF5E then Char.ofNat (n - 0xFEE0)
  else if n == 0x3002 || n == 0xFF61 then '.'
  else if n == 0x3000 || n == 0xA0 then ' '
  else c

/-- A character that stands for nothing. -/
def isVoid (c : Char) : Bool :=
  let n := c.toNat
  (0x80 ≤ n && n ≤ 0x9F) || (0xE000 ≤ n && n ≤ 0xF8FF) || n == 0xFFFC || n == 0xFFFD
    || n % 0x10000 ≥ 0xFFFE || (0x2028 ≤ n && n ≤ 0x202E) || (0xF0000 ≤ n)

/-- The ASCII form of a label in lower case. -/
def asciiLabel? (label : List Char) : Option (List Char) :=
  match label with
  | 'x' :: 'n' :: '-' :: '-' :: code =>
    if label.all fun c => c.toNat < 0x80 then
      match Punycode.decode? code with
      | some decoded =>
        if decoded.any (fun c => 0x80 ≤ c.toNat) && !decoded.any isVoid then some label else none
      | none => none
    else none
  | label =>
    if label.all fun c => c.toNat < 0x80 then some label
    else some ('x' :: 'n' :: '-' :: '-' :: Punycode.encode label)

/-- The ASCII form of a domain. -/
def domain? (cs : List Char) : Option (List Char) := do
  let mapped := (Text.lowercase (String.ofList ((cs.filter fun c => !isDropped c).map plainWidth))).toList
  if mapped.any isVoid then none
  else
    let labels ← (mapped.splitOn '.').mapM asciiLabel?
    let ascii := ['.'].intercalate labels
    if ascii.isEmpty || ascii.any isForbidden then none else some ascii

namespace Host

/-- The text of a host. -/
def text : Host → String
  | .name s => s
  | .v4 address => v4Text address
  | .v6 pieces => "[" ++ v6Text pieces ++ "]"

/-- An IPv6 address in brackets. -/
def bracketed? (cs : List Char) : Option Host :=
  match cs.reverse with
  | ']' :: inner => (v6Address? (inner.reverse.drop 1)).map .v6
  | _ => none

/-- The host that a text names with a scheme of the web. -/
def ofWebText? (cs : List Char) : Option Host :=
  if cs.head? == some '[' then bracketed? cs
  else do
    let decoded ← Text.Utf8.decode? (percentDecode cs)
    let ascii ← domain? decoded
    if endsInNumber ascii then (v4Address? ascii).map .v4 else some (.name (String.ofList ascii))

/-- A character that no host holds. -/
def isBarred (c : Char) : Bool :=
  ['\x00', '\t', '\n', '\r', ' ', '#', '/', ':', '<', '>', '?', '@', '[', '\\', ']', '^', '|'].contains c

/-- The host that a text names with any other scheme. -/
def ofPlainText? (cs : List Char) : Option Host :=
  if cs.head? == some '[' then bracketed? cs
  else if cs.any isBarred then none
  else some (.name (String.ofList (percentEncode controlSet cs)))

end Host

end Runwatch.Net
