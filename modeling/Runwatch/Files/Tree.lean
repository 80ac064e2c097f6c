/-
Runwatch.Files.Tree — files and directories.

A tree holds the bytes of each file by name. A path is looked up piece by
piece from the root or from a working directory: every piece but the last
must lead to a directory, and the last may name something that is not
there yet.
-/
import Runwatch.Files.Fault
import Runwatch.Files.Path
import Runwatch.Text.Utf8

namespace Runwatch.Files

/-- A file with its bytes, or a directory with what it holds. -/
inductive Node where
  | file (bytes : List UInt8)
  | dir (entries : List (String × Node))
  deriving Inhabited

namespace Node

/-- A directory that holds nothing. -/
def empty : Node := .dir []

/-- What stands at a list of names below a node. -/
def get? (n : Node) : List String → Option Node
  | [] => some n
  | name :: rest =>
    match n with
    | .file _ => none
    | .dir entries =>
      match entries.lookup name with
      | some child => child.get? rest
      | none => none

/-- Entries with one of them replaced, added or, for none, removed. -/
def setEntry (entries : List (String × Node)) (name : String) (n : Option Node) :
    List (String × Node) :=
  let others := entries.filter (·.1 != name)
  match n with
  | some n => others ++ [(name, n)]
  | none => others

/-- The tree with `value` at a list of names, or nothing there; directories
on the way that are missing are added. -/
def set (n : Node) (names : List String) (value : Option Node) : Node :=
  match names with
  | [] => value.getD n
  | name :: rest =>
    let entries := match n with
      | .dir entries => entries
      | .file _ => []
    match rest with
    | [] => .dir (setEntry entries name value)
    | _ :: _ =>
      let child := (entries.lookup name).getD empty
      .dir (setEntry entries name (some (child.set rest value)))

end Node

/-- A tree with the names that lead to the working directory. -/
structure Tree where
  root : Node
  cwd : List String

namespace Tree

/-- What stands at a list of names from the root. -/
def at? (t : Tree) (names : List String) : Option Node := t.root.get? names

/-- Steps from `here` along the pieces of a path. -/
def walk (t : Tree) (here : List String) : List (List Char) → Except Fault (List String)
  | [] => .ok here
  | piece :: rest =>
    match t.at? here with
    | none => .error .missing
    | some (.file _) => .error .notDirectory
    | some (.dir _) =>
      if piece == [] || piece == ['.'] then t.walk here rest
      else if piece == ['.', '.'] then t.walk here.dropLast rest
      else if (Text.Utf8.encode piece).length > 255 then .error .nameTooLong
      else t.walk (here ++ [String.ofList piece]) rest

/-- The names from the root to what a path means. -/
def locate (t : Tree) (path : String) : Except Fault (List String) :=
  let cs := path.toList
  if cs.isEmpty then .error .missing
  else if cs.any (· == '\x00') then .error .nulInPath
  else if (Text.Utf8.encode cs).length > 4095 then .error .nameTooLong
  else match cs.splitOn '/' with
    | [] => .ok t.cwd
    | first :: rest => if first == [] then t.walk [] rest else t.walk t.cwd (first :: rest)

/-- The file or directory that a path means. -/
def find (t : Tree) (path : String) : Except Fault Node := do
  let names ← t.locate path
  match t.at? names with
  | some n => .ok n
  | none => .error .missing

/-- Whether a path leads to something. -/
def has (t : Tree) (path : String) : Bool :=
  match t.find path with
  | .ok _ => true
  | .error _ => false

/-- Whether a path leads to a directory. -/
def hasDir (t : Tree) (path : String) : Bool :=
  match t.find path with
  | .ok (.dir _) => true
  | _ => false

/-- The bytes of a file. -/
def read (t : Tree) (path : String) : Except Fault (List UInt8) := do
  match ← t.find path with
  | .file bytes => .ok bytes
  | .dir _ => .error .isDirectory

/-- The text of a file. -/
def readText (t : Tree) (path : String) : Except Fault String := do
  match Text.Utf8.text? (← t.read path) with
  | some s => .ok s
  | none => .error .notText

/-- The tree with something else at a path. -/
def put (t : Tree) (path : String) (n : Option Node) : Except Fault Tree := do
  let names ← t.locate path
  match t.at? names.dropLast with
  | some (.dir _) => .ok { t with root := t.root.set names n }
  | some (.file _) => .error .notDirectory
  | none => .error .missing

/-- Writes a file, in place of one that is there. -/
def write (t : Tree) (path : String) (bytes : List UInt8) : Except Fault Tree :=
  if t.hasDir path then .error .isDirectory else t.put path (some (.file bytes))

/-- Adds bytes to a file, which need not be there. -/
def append (t : Tree) (path : String) (bytes : List UInt8) : Except Fault Tree :=
  match t.read path with
  | .ok old => t.write path (old ++ bytes)
  | .error (.system 2) => t.write path bytes
  | .error e => .error e

/-- Cuts a file to a length or extends it with zeros. -/
def setLength (t : Tree) (path : String) (length : Nat) : Except Fault Tree := do
  let old ← t.read path
  t.write path (old.take length ++ List.replicate (length - old.length) 0)

/-- Removes a file or a directory. -/
def delete (t : Tree) (path : String) : Except Fault Tree := do
  let _ ← t.find path
  t.put path none

/-- Moves a file or a directory to another path. -/
def rename (t : Tree) (path target : String) : Except Fault Tree := do
  let n ← t.find path
  let moved ← t.put target (some n)
  moved.put path none

/-- Makes one directory. -/
def makeDir (t : Tree) (path : String) : Except Fault Tree :=
  if t.has path then .error .exists else t.put path (some .empty)

/-- Makes a directory and those above it that are missing. `depth` bounds
how many. -/
def makeDirs : Nat → Tree → String → Except Fault Tree
  | 0, t, _ => .ok t
  | depth + 1, t, path =>
    if path.isEmpty then .ok t
    else match t.makeDir path with
      | .ok made => .ok made
      | .error (.system 2) =>
        match parent? path with
        | none => .error .missing
        | some above => do
          let made ← makeDirs depth t above
          match made.makeDir path with
          | .ok made => .ok made
          | .error e => if made.hasDir path then .ok made else .error e
      | .error e => if t.hasDir path then .ok t else .error e

/-- Makes a directory with its parents. -/
def makeAll (t : Tree) (path : String) : Except Fault Tree := makeDirs (path.length + 1) t path

end Tree

end Runwatch.Files
