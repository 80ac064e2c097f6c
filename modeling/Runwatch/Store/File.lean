/-
Runwatch.Store.File — a database in a file.

The file holds the rows as a JSON document; an empty file is a database
without the table. Opening makes the file, and the directories above it, if
they are not there. Two paths stand for a database without a file.
-/
import Runwatch.Files.Tree
import Runwatch.Json.Reader
import Runwatch.Json.Writer
import Runwatch.Store.Table

namespace Runwatch.Store

open Json (Value)

/-! ## The document -/

/-- A row as a JSON value. -/
def Row.toJson (r : Row) : Value :=
  .array
    [Value.ofString? r.token, .string r.user, .string r.environment, .string r.bundle,
     .string r.createdAt, .string r.updatedAt, Value.ofString? r.invalidatedAt,
     Value.ofString? r.invalidatedReason]

/-- A text that may be missing. -/
def columnOfJson? : Value → Option (Option String)
  | .null => some none
  | .string s => some (some s)
  | _ => none

/-- Reads a row. -/
def Row.ofJson? : Value → Option Row
  | .array [token, .string user, .string environment, .string bundle, .string createdAt,
      .string updatedAt, invalidatedAt, invalidatedReason] => do
    pure
      { token := ← columnOfJson? token, user, environment, bundle, createdAt, updatedAt
        invalidatedAt := ← columnOfJson? invalidatedAt
        invalidatedReason := ← columnOfJson? invalidatedReason }
  | _ => none

/-- The contents of the file of a database. -/
def Database.bytes (d : Database) : List UInt8 :=
  match d.table with
  | none => []
  | some t =>
    Text.Utf8.bytes (Json.compact (.object [(tableName, .array (t.rows.map Row.toJson))]))

/-- The database in a file with these contents. -/
def Database.ofBytes? (bytes : List UInt8) : Option Database :=
  if bytes.isEmpty then some empty
  else do
    let v ← Json.parse? (← Text.Utf8.text? bytes)
    match v with
    | .object [(name, .array rows)] =>
      if name == tableName then some ⟨some (Table.ofRows (← rows.mapM Row.ofJson?))⟩ else none
    | _ => none

/-! ## The file -/

/-- Whether a path stands for a database without a file. -/
def isFileless (path : String) : Bool := path.isEmpty || path == ":memory:"

/-- How many bytes stand before the first NUL character of a path, if it has
one. -/
def nulPlace? (path : String) : Option Nat :=
  if path.toList.contains '\x00' then
    some (Text.Utf8.encode (path.toList.takeWhile (· != '\x00'))).length
  else none

/-- Makes the directories above a path that are missing. -/
def makeAbove (tree : Files.Tree) (path : String) : Except StoreError Files.Tree :=
  match Files.parent? path with
  | none => .ok tree
  | some above =>
    if above.isEmpty then .ok tree
    else match tree.makeAll above with
      | .ok made => .ok made
      | .error fault => .error (.directory above fault)

/-- The tree with an empty file at a path where nothing is. -/
def makeFile (tree : Files.Tree) (path : String) : Except StoreError Files.Tree :=
  if tree.has path then .ok tree
  else match tree.write path [] with
    | .ok made => .ok made
    | .error _ => .error (.table (.cannotOpen path))

/-- The database in the file at a path. -/
def readFile (tree : Files.Tree) (path : String) : Except StoreError Database :=
  match tree.read path with
  | .error _ => .error (.table (.cannotOpen path))
  | .ok bytes =>
    match Database.ofBytes? bytes with
    | some d => .ok d
    | none => .error (.table .notDatabase)

/-- Opens the database at a path. What was made on the way stays even if
that fails. -/
def openAt (tree : Files.Tree) (path : String) : Files.Tree × Except StoreError Database :=
  match makeAbove tree path with
  | .error e => (tree, .error e)
  | .ok tree =>
    if isFileless path then (tree, .ok .empty)
    else match nulPlace? path with
      | some place => (tree, .error (.table (.nulInPath place)))
      | none =>
        match makeFile tree path with
        | .error e => (tree, .error e)
        | .ok tree => (tree, readFile tree path)

/-- Writes a database to the file at its path. -/
def save (tree : Files.Tree) (path : String) (d : Database) : Files.Tree :=
  if isFileless path then tree
  else match tree.write path d.bytes with
    | .ok written => written
    | .error _ => tree

end Runwatch.Store
