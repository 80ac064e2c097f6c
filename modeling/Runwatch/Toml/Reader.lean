/-
Runwatch.Toml.Reader — reading TOML documents.

`parse` gives the root table of a document, or the place of the first point
from which it cannot be read on. `Position.ofPlace` turns a place into a
line and a column.
-/
import Runwatch.Toml.Node
import Runwatch.Toml.Scalar
import Runwatch.Text.Utf8

namespace Runwatch.Toml

open Text (isDigit)

/-! ## Keys -/

/-- A character of a key without quotes. -/
def isBare (c : Char) : Bool :=
  isDigit c || ('a' ≤ c && c ≤ 'z') || ('A' ≤ c && c ≤ 'Z') || c == '-' || c == '_'

/-- Reads one key. -/
def readSimpleKey (cs : List Char) : Reading (Key × List Char) :=
  match cs with
  | '"' :: rest => do
    let (name, rest) ← readBasic cs.length [] rest
    pure (⟨name, cs.length⟩, rest)
  | '\'' :: rest => do
    let (name, rest) ← readLiteral rest
    pure (⟨name, cs.length⟩, rest)
  | _ =>
    let name := cs.takeWhile isBare
    if name.isEmpty then .error cs else .ok (⟨String.ofList name, cs.length⟩, cs.dropWhile isBare)

/-- Whether a key begins here. -/
def startsKey : List Char → Bool
  | c :: _ => c == '"' || c == '\'' || isBare c
  | [] => false

/-- Reads keys that points part, with blanks around them. A point that no
key follows is left to the reader that comes next. -/
def readKeys : Nat → List Char → Reading (List Key × List Char)
  | 0, cs => .error cs
  | fuel + 1, cs => do
    let (key, rest) ← readSimpleKey (skipGap cs)
    let rest := skipGap rest
    match rest with
    | '.' :: next =>
      if startsKey (skipGap next) then do
        let (keys, rest) ← readKeys fuel next
        pure (key :: keys, rest)
      else pure ([key], rest)
    | _ => pure ([key], rest)

/-- The most levels that keys, arrays and inline tables may have. -/
def maxDepth : Nat := 79

/-- Reads a path of keys, the last of which stands apart. -/
def readPath (cs : List Char) : Reading ((List Key × Key) × List Char) := do
  let (keys, rest) ← readKeys (cs.length + 1) cs
  match keys.getLast? with
  | some last => if maxDepth < keys.length then .error cs else .ok ((keys.dropLast, last), rest)
  | none => .error cs

/-! ## Values -/

/-- A table in braces; none if a key is assigned twice. -/
def inlineTable? (place : Nat) (pairs : List (List Key × Key × Node)) : Option Node :=
  pairs.foldlM (fun t (path, key, v) => Node.assign .inline path key v t)
    (Node.ofKind .inline (some place))

mutual

/-- Reads a value that may hold `depth` levels of arrays and tables. -/
def readValue : Nat → Nat → List Char → Reading (Node × List Char)
  | 0, _, cs => .error cs
  | fuel + 1, depth, cs =>
    match cs with
    | '"' :: _ => do
      let (s, rest) ← readText cs
      pure (.plain cs.length (.string s), rest)
    | '\'' :: _ => do
      let (s, rest) ← readText cs
      pure (.plain cs.length (.string s), rest)
    | '[' :: rest =>
      match depth with
      | 0 => .error cs
      | depth + 1 => do
        let (items, rest) ← readItems fuel depth [] rest
        pure (.array cs.length items, rest)
    | '{' :: inner =>
      match depth with
      | 0 => .error cs
      | depth + 1 => do
        let (pairs, rest) ← readPairs fuel depth [] inner
        match inlineTable? cs.length pairs with
        | some t => pure (t, rest)
        | none => .error inner
    | 't' :: 'r' :: 'u' :: 'e' :: rest => .ok (.plain cs.length (.bool true), rest)
    | 'f' :: 'a' :: 'l' :: 's' :: 'e' :: rest => .ok (.plain cs.length (.bool false), rest)
    | _ =>
      match readDate? cs with
      | some reading => do
        let rest ← reading
        pure (.date cs.length, rest)
      | none => do
        let (v, rest) ← readNumber cs
        pure (.plain cs.length v, rest)

/-- Reads the items of an array, after its bracket or a comma. -/
def readItems : Nat → Nat → List Node → List Char → Reading (List Node × List Char)
  | 0, _, _, cs => .error cs
  | fuel + 1, depth, done, cs =>
    match skipLines cs.length cs with
    | ']' :: rest => .ok (done.reverse, rest)
    | cs => do
      let (item, rest) ← readValue fuel depth cs
      match skipLines rest.length rest with
      | ',' :: rest => readItems fuel depth (item :: done) rest
      | ']' :: rest => pure ((item :: done).reverse, rest)
      | rest => .error rest

/-- Reads the assignments of a table in braces, after its brace. -/
def readPairs : Nat → Nat → List (List Key × Key × Node) → List Char →
    Reading (List (List Key × Key × Node) × List Char)
  | 0, _, _, cs => .error cs
  | fuel + 1, depth, done, cs =>
    match skipGap cs with
    | '}' :: rest => if done.isEmpty then .ok ([], rest) else .error cs
    | cs => do
      let ((path, key), rest) ← readPath cs
      let rest ← readMark '=' rest
      let (v, rest) ← readValue fuel depth (skipGap rest)
      let done := (path, key, v) :: done
      match skipGap rest with
      | ',' :: next =>
        if startsKey (skipGap next) then readPairs fuel depth done next else .error (skipGap rest)
      | '}' :: rest => pure (done.reverse, rest)
      | rest => .error rest

end

/-! ## Documents -/

/-- Turns a refused step of the builder into an error at a point. -/
def orStuck (stuck : List Char) : Option α → Reading α
  | some a => .ok a
  | none => .error stuck

/-- Reads a line that begins with a key. -/
def readAssignment (b : Builder) (cs : List Char) : Reading (Builder × List Char) := do
  let ((path, key), rest) ← readPath cs
  let rest ← readMark '=' rest
  let rest := skipGap rest
  let (v, rest) ← readValue (2 * rest.length + 2) maxDepth rest
  let rest ← endLine rest
  let b ← orStuck cs (b.assign path key v)
  pure (b, rest)

/-- Reads a header. -/
def readHeader (b : Builder) (cs : List Char) : Reading (Builder × List Char) :=
  match cs with
  | '[' :: '[' :: inner => do
    let ((path, key), rest) ← readPath inner
    match rest with
    | ']' :: ']' :: rest => do
      let rest ← endLine rest
      let b ← orStuck cs (b.openElement (path ++ [key]) cs.length)
      pure (b, rest)
    | rest => .error rest
  | '[' :: inner => do
    if inner.isEmpty then .error cs
    else do
      let ((path, key), rest) ← readPath inner
      let rest ← readMark ']' rest
      let rest ← endLine rest
      let b ← orStuck cs (b.openTable (path ++ [key]) cs.length)
      pure (b, rest)
  | _ => .error cs

/-- Reads lines to the end. -/
def readLinesOf : Nat → Builder → List Char → Reading Builder
  | 0, _, cs => .error cs
  | fuel + 1, b, cs =>
    match skipGap cs with
    | [] => .ok b
    | '#' :: rest => do
      let rest ← endLine ('#' :: rest)
      readLinesOf fuel b rest
    | '[' :: rest => do
      let (b, rest) ← readHeader b ('[' :: rest)
      readLinesOf fuel b rest
    | cs =>
      match lineFeed? cs with
      | some rest => readLinesOf fuel b rest
      | none =>
        if cs.head? == some '\r' then .error cs
        else do
          let (b, rest) ← readAssignment b cs
          readLinesOf fuel b rest

/-- The document without a byte order mark. -/
def dropMark : List Char → List Char
  | '\ufeff' :: rest => rest
  | cs => cs

/-- Reads a document: its root table, or the place where reading ends. -/
def parse (cs : List Char) : Except Nat Node :=
  match readLinesOf (cs.length + 1) .start (dropMark cs) with
  | .error stuck => .error stuck.length
  | .ok b => match b.close with
    | some root => .ok root
    | none => .error 0

/-! ## Positions -/

/-- A line and a column, both counted from one. -/
structure Position where
  line : Nat
  column : Nat
  deriving DecidableEq, Repr

/-- Counts the column in characters; a character beyond ASCII that stands
at the place itself makes the bytes before it count. -/
def columnOf (before : List Char) (at? : Option Char) : Nat :=
  match at? with
  | some c => if c.toNat < 0x80 then before.length else (Text.Utf8.encode before).length
  | none => before.length

/-- The position of a place. The end of a document that ends a line counts
as one past that line end. -/
def Position.ofPlace (document : List Char) (place : Nat) : Position :=
  let index := min (document.length - place) (document.length - 1)
  let past := (document.length - place) - index
  let before := document.take index
  let line := (before.reverse.takeWhile (· != '\n')).reverse
  let here := if past == 0 then document[index]? else none
  { line := before.count '\n' + 1
    column := columnOf line here + past + 1 }

end Runwatch.Toml
