/-
Runwatch.Toml.Node — the tree that a TOML document builds.

A document is a sequence of headers and assignments, and a table may be
named by several of them. Which of them may add to it depends on how the
table came into being, so a node of the tree remembers that. `Builder` is
the tree in the making; each of its steps is refused where it would define
something twice.

A place is the number of characters from a point to the end of the
document.
-/
import Runwatch.Json.Decode

namespace Runwatch.Toml

/-- How a table came into being. -/
inductive TableKind where
  /-- A header names it, or it is the whole document. -/
  | header
  /-- It lies on the way to a table that a header names. -/
  | implied
  /-- It lies on the way to an assignment with a dotted key. -/
  | dotted
  /-- It is written in braces. -/
  | inline
  deriving DecidableEq, Repr

/-- A key and where it is written. -/
structure Key where
  name : String
  place : Nat
  deriving DecidableEq, Repr

/-- A part of a document. -/
inductive Node where
  /-- A text, a number or a truth value. -/
  | plain (place : Nat) (v : Json.Value)
  /-- A date, a time or both. -/
  | date (place : Nat)
  /-- An array in brackets. -/
  | array (place : Nat) (items : List Node)
  /-- The tables that headers in double brackets add to an array. -/
  | tables (items : List Node)
  | table (kind : TableKind) (place : Option Nat) (entries : List (Key × Node))

namespace Node

/-- A table without entries. -/
def ofKind (kind : TableKind) (place : Option Nat) : Node := .table kind place []

/-- The entry of a name. -/
def lookup (name : String) (entries : List (Key × Node)) : Option Node :=
  (entries.find? (·.1.name == name)).map (·.2)

/-- The entries with another node under a name that they have. -/
def replace (name : String) (n : Node) (entries : List (Key × Node)) : List (Key × Node) :=
  entries.map fun (k, old) => if k.name == name then (k, n) else (k, old)

/-- Whether a path of keys of this kind may enter a table: no key enters a
table in braces, and a dotted one only what no header names. -/
def enters (through table : TableKind) : Bool :=
  match through, table with
  | .inline, t => t == .dotted
  | .dotted, t => t == .implied || t == .dotted
  | _, t => t != .inline

/-- Applies `f` to the table at the end of a path; tables that are missing
on the way are made, and of an array of tables the last one is entered. -/
def descend (through made : TableKind) (f : Node → Option (Node × α)) :
    List Key → Node → Option (Node × α)
  | [], n => f n
  | key :: path, .table kind place entries =>
    match lookup key.name entries with
    | none => do
      let (child, a) ← descend through made f path (ofKind made none)
      pure (.table kind place (entries ++ [(key, child)]), a)
    | some (.tables items) => do
      let last ← items.getLast?
      let (child, a) ← descend through made f path last
      pure (.table kind place (replace key.name (.tables (items.dropLast ++ [child])) entries), a)
    | some (.table k p es) =>
      if enters through k then do
        let (child, a) ← descend through made f path (.table k p es)
        pure (.table kind place (replace key.name child entries), a)
      else none
    | some _ => none
  | _ :: _, _ => none

/-- Adds an entry to a table, under a name that it does not have. A dotted
key adds only to a table made by dotted keys. -/
def add (isDotted : Bool) (key : Key) (n : Node) : Node → Option (Node × Unit)
  | .table kind place entries =>
    if (kind == .dotted) != isDotted || (lookup key.name entries).isSome then none
    else some (.table kind place (entries ++ [(key, n)]), ())
  | _ => none

/-- Assigns a value to a key in a table. -/
def assign (through : TableKind) (path : List Key) (key : Key) (v table : Node) : Option Node :=
  (descend through .dotted (add (!path.isEmpty) key v) path table).map (·.1)

/-! ## Values -/

mutual

/-- The value of a node; a date stands for a map that nothing is read from. -/
def toJson : Node → Json.Value
  | .plain _ v => v
  | .date _ => .object []
  | .array _ items => .array (itemsToJson items)
  | .tables items => .array (itemsToJson items)
  | .table _ _ entries => .object (entriesToJson entries)

/-- The values of a list of nodes. -/
def itemsToJson : List Node → List Json.Value
  | [] => []
  | n :: rest => n.toJson :: itemsToJson rest

/-- The members that entries stand for. -/
def entriesToJson : List (Key × Node) → Json.Members
  | [] => []
  | (k, n) :: rest => (k.name, n.toJson) :: entriesToJson rest

end

/-- Where a node is written; a table without header is nowhere. -/
def place? : Node → Option Nat
  | .plain place _ => some place
  | .date place => some place
  | .array place _ => some place
  | .tables items => match items with
    | .table _ place _ :: _ => place
    | _ => none
  | .table _ place _ => place

/-- Where the node at the end of some steps is written: the node itself,
else its key, else what it lies in. -/
def placeAt (otherwise : Option Nat) : List Json.Step → Node → Option Nat
  | [], n => n.place? <|> otherwise
  | .member name :: steps, n =>
    match n with
    | .table _ place entries =>
      match entries.find? (·.1.name == name) with
      | some (key, child) => placeAt (some key.place) steps child
      | none => place <|> otherwise
    | n => n.place? <|> otherwise
  | .element i :: steps, n =>
    let here := n.place? <|> otherwise
    match n with
    | .array _ items => match items[i]? with
      | some child => placeAt here steps child
      | none => here
    | .tables items => match items[i]? with
      | some child => placeAt here steps child
      | none => here
    | _ => here

end Node

/-! ## Building a document -/

/-- A document in the making: the tables that are closed, and the open one
with the path of its header. -/
structure Builder where
  root : Node
  current : Node
  path : List Key
  isElement : Bool

namespace Builder

/-- A document of which nothing is read. -/
def start : Builder := ⟨.ofKind .header (some 0), .ofKind .header (some 0), [], false⟩

/-- Puts the open table, which has a header, into the table above it. -/
def attach (b : Builder) (key : Key) : Node → Option (Node × Unit)
  | .table kind place entries =>
    match Node.lookup key.name entries, b.isElement with
    | none, true => some (.table kind place (entries ++ [(key, .tables [b.current])]), ())
    | none, false => some (.table kind place (entries ++ [(key, b.current)]), ())
    | some (.tables items), true =>
      some (.table kind place (Node.replace key.name (.tables (items ++ [b.current])) entries), ())
    | _, _ => none
  | _ => none

/-- Closes the open table. -/
def close (b : Builder) : Option Node :=
  match b.path.getLast? with
  | none => some b.current
  | some key => (Node.descend .header .implied (b.attach key) b.path.dropLast b.root).map (·.1)

/-- Takes a table that was only implied out of the table above it. -/
def takeImplied (key : Key) : Node → Option (Node × List (Key × Node))
  | .table kind place entries =>
    match Node.lookup key.name entries with
    | none => some (.table kind place entries, [])
    | some (.table .implied _ own) =>
      some (.table kind place (entries.filter (·.1.name != key.name)), own)
    | some _ => none
  | _ => none

/-- Makes sure that a name stands for an array of tables, or for nothing
yet. -/
def admitElement (key : Key) : Node → Option (Node × Unit)
  | .table kind place entries =>
    match Node.lookup key.name entries with
    | none => some (.table kind place entries, ())
    | some (.tables _) => some (.table kind place entries, ())
    | some _ => none
  | _ => none

/-- Opens the table of a header. -/
def openTable (b : Builder) (path : List Key) (place : Nat) : Option Builder := do
  let root ← b.close
  let key ← path.getLast?
  let (root, own) ← Node.descend .header .implied (takeImplied key) path.dropLast root
  pure ⟨root, .table .header (some place) own, path, false⟩

/-- Opens a new table of an array of tables. -/
def openElement (b : Builder) (path : List Key) (place : Nat) : Option Builder := do
  let root ← b.close
  let key ← path.getLast?
  let (root, _) ← Node.descend .header .implied (admitElement key) path.dropLast root
  pure ⟨root, .ofKind .header (some place), path, true⟩

/-- Assigns a value in the open table. -/
def assign (b : Builder) (path : List Key) (key : Key) (v : Node) : Option Builder :=
  (Node.assign .dotted path key v b.current).map fun t => { b with current := t }

end Builder

end Runwatch.Toml
