/-
Runwatch.Store.Table — device tokens kept in a table of texts.

A `Row` holds texts and may hold nothing in some columns; a `Table` holds at
most one row for each token. Other programs may write rows as well, so
that a row need not be a record: reading one may fail. The active rows of a
user are listed by the text of their creation time, then by token.

A `Database` may be without the table; `migrate` makes it. Registering
writes the row first and reads it again, and gives what it reads.
-/
import Runwatch.Store.Error
import Runwatch.Token.Record

namespace Runwatch.Store

open Time (Instant)

/-- The name of the table. -/
def tableName : String := "device_tokens"

/-! ## Rows -/

/-- A row as it is stored. -/
structure Row where
  token : Option String
  user : String
  environment : String
  bundle : String
  createdAt : String
  updatedAt : String
  invalidatedAt : Option String
  invalidatedReason : Option String
  deriving DecidableEq, Repr

namespace Row

/-- A value that no row is without. -/
def needed (column : String) : Option String → Except TableFault String
  | some s => .ok s
  | none => .error (.missingValue (tableName ++ "." ++ column))

/-- The row with some columns given, if those are there that it needs. -/
def ofColumns (column : String → Option String) : Except TableFault Row := do
  pure
    { token := column "token"
      user := ← needed "user_id" (column "user_id")
      environment := ← needed "environment" (column "environment")
      bundle := ← needed "bundle_id" (column "bundle_id")
      createdAt := ← needed "created_at" (column "created_at")
      updatedAt := ← needed "updated_at" (column "updated_at")
      invalidatedAt := column "invalidated_at"
      invalidatedReason := column "invalidated_reason" }

/-- Whether two rows are about the same token. A row without token is about
none. -/
def sameToken (a b : Row) : Bool := a.token.isSome && a.token == b.token

/-- Whether no time of invalidation is stored, whatever text it may be. -/
def isActive (r : Row) : Bool := r.invalidatedAt.isNone

/-- The tier that a row names. -/
def readEnvironment (word : String) : Except StoreError Environment :=
  match Environment.parse word with
  | .ok e => .ok e
  | .error _ => .error (.environment word)

/-- The time that a text of a row gives. -/
def readTime (text : String) : Except StoreError Instant :=
  match Time.parseStrict text with
  | .ok t => .ok t
  | .error cause => .error (.time text cause)

/-- The time that a row may give. -/
def readTime? : Option String → Except StoreError (Option Instant)
  | none => .ok none
  | some text => (readTime text).map some

/-- The token of a row. -/
def readToken (r : Row) : Except StoreError String :=
  match r.token with
  | some token => .ok token
  | none => .error (.table (.nullColumn 0 "token"))

/-- The record that a row holds. -/
def readRecord (r : Row) : Except StoreError DeviceToken := do
  pure
    { token := ← r.readToken
      user := ⟨r.user⟩
      environment := ← readEnvironment r.environment
      bundle := r.bundle
      createdAt := ← readTime r.createdAt
      updatedAt := ← readTime r.updatedAt
      invalidatedAt := ← readTime? r.invalidatedAt
      invalidatedReason := r.invalidatedReason }

/-- The address that a row holds. -/
def readAddress (r : Row) : Except StoreError ActiveToken := do
  let token ← r.readToken
  let environment ← readEnvironment r.environment
  pure ⟨token, environment, r.bundle⟩

/-- Whether an optional text comes before another one or at its place;
nothing comes first. -/
def textBefore : Option String → Option String → Bool
  | none, _ => true
  | some _, none => false
  | some a, some b => !decide (b < a)

/-- Whether a row comes before another one in a list, or at its place. -/
def listedBefore (a b : Row) : Bool :=
  decide (a.createdAt < b.createdAt) || (a.createdAt == b.createdAt && textBefore a.token b.token)

end Row

/-! ## The table -/

/-- Rows, at most one for each token. -/
structure Table where
  rows : List Row
  distinct : rows.Pairwise fun a b => a.sameToken b = false

namespace Table

/-- No rows. -/
def empty : Table := ⟨[], .nil⟩

/-- The row of a token. -/
def find? (t : Table) (token : String) : Option Row := t.rows.find? (·.token == some token)

/-- The table with a row in place of the one of the same token. -/
def put (t : Table) (r : Row) : Table where
  rows := t.rows.filter (fun a => !a.sameToken r) ++ [r]
  distinct := by
    refine List.pairwise_append.2 ⟨t.distinct.filter _, List.pairwise_singleton _ _, ?_⟩
    intro a ha b hb
    have hr : b = r := by simpa using hb
    have hne : (!a.sameToken r) = true := (List.mem_filter.1 ha).2
    simpa [hr] using hne

/-- The table that holds a list of rows, of two about the same token the
later one. -/
def ofRows (rows : List Row) : Table := rows.foldl put empty

/-- Enters a token, or enters it again. -/
def register (t : Table) (now : String) (r : Registration) : Table :=
  t.put
    { token := some r.token, user := r.user.text, environment := r.environment.word
      bundle := r.bundle, createdAt := ((t.find? r.token).map (·.createdAt)).getD now
      updatedAt := now, invalidatedAt := none, invalidatedReason := none }

/-- Ends the use of a token; tells whether it was active. -/
def mark (t : Table) (now token reason : String) : Table × Bool :=
  match t.find? token with
  | some r =>
    if r.isActive then
      (t.put { r with updatedAt := now, invalidatedAt := some now, invalidatedReason := some reason },
        true)
    else (t, false)
  | none => (t, false)

/-- The active rows of a user. -/
def active (t : Table) (user : String) : List Row :=
  (t.rows.filter fun r => r.user == user && r.isActive).mergeSort Row.listedBefore

end Table

/-! ## The database -/

/-- A database that may hold the table. -/
structure Database where
  table : Option Table

namespace Database

/-- A database without the table. -/
def empty : Database := ⟨none⟩

/-- Makes the table if it is not there. -/
def migrate (d : Database) : Database := ⟨some (d.table.getD Table.empty)⟩

/-- The table. -/
def needTable (d : Database) : Except StoreError Table :=
  match d.table with
  | some t => .ok t
  | none => .error (.table (.missingTable tableName))

/-- The record of a token in a table. -/
def load (t : Table) (token : String) : Except StoreError (Option DeviceToken) :=
  match t.find? token with
  | some r => r.readRecord.map some
  | none => .ok none

/-- The record of a token. -/
def get (d : Database) (token : String) : Except StoreError (Option DeviceToken) := do
  load (← d.needTable) token

/-- Enters a token, or enters it again; gives the record that is read
afterwards. -/
def register (d : Database) (now : Instant) (r : Registration) :
    Database × Except StoreError DeviceToken :=
  match d.needTable with
  | .error e => (d, .error e)
  | .ok t =>
    let t := t.register now.rfc3339 r
    (⟨some t⟩, match load t r.token with
      | .ok (some record) => .ok record
      | .ok none => .error (.table .noRow)
      | .error e => .error e)

/-- The active tokens of a user. -/
def active (d : Database) (user : UserId) : Except StoreError (List ActiveToken) := do
  ((← d.needTable).active user.text).mapM Row.readAddress

/-- Ends the use of a token; tells whether it was active. -/
def mark (d : Database) (now : Instant) (token reason : String) :
    Database × Except StoreError Bool :=
  match d.needTable with
  | .error e => (d, .error e)
  | .ok t =>
    let (t, changed) := t.mark now.rfc3339 token reason
    (⟨some t⟩, .ok changed)

/-- Puts a row into the table, as another program might. -/
def insert (d : Database) (r : Row) : Except StoreError Database := do
  let t ← d.needTable
  pure ⟨some (t.put r)⟩

end Database

end Runwatch.Store
