/-
Runwatch.Store.Error — why the token store does not answer.
-/
import Runwatch.Files.Fault
import Runwatch.Time.Rfc3339

namespace Runwatch.Store

/-- Why the database refuses a statement or cannot be had. -/
inductive TableFault where
  /-- The table is not there. -/
  | missingTable (table : String)
  /-- A column holds null where a text is read. -/
  | nullColumn (place : Nat) (column : String)
  /-- A row without a value that every row has. -/
  | missingValue (column : String)
  /-- The file cannot be opened. -/
  | cannotOpen (path : String)
  /-- The file holds something else. -/
  | notDatabase
  /-- The path holds a NUL character, at this place. -/
  | nulInPath (place : Nat)
  /-- A row that was looked for is not there. -/
  | noRow
  deriving DecidableEq, Repr

/-- The wording of a `TableFault`. -/
def TableFault.message : TableFault → String
  | .missingTable table => "no such table: " ++ table
  | .nullColumn place column =>
    "Invalid column type Null at index: " ++ Text.decimal place ++ ", name: " ++ column
  | .missingValue column => "NOT NULL constraint failed: " ++ column
  | .cannotOpen path => "unable to open database file: " ++ path
  | .notDatabase => "file is not a database"
  | .nulInPath place => "nul byte found in provided data at position: " ++ Text.decimal place
  | .noRow => "Query returned no rows"

/-- Why the token store does not answer. -/
inductive StoreError where
  | table (fault : TableFault)
  /-- A stored time that is none. -/
  | time (text : String) (cause : Time.TimeError)
  /-- A stored word that names no tier. -/
  | environment (word : String)
  /-- The directory of the store cannot be made. -/
  | directory (path : String) (fault : Files.Fault)
  /-- An operation broke off while it held the store. -/
  | poisoned
  /-- The task that should have done the operation ended without result. -/
  | task (reason : String)
  deriving DecidableEq, Repr

/-- The word for the kind of a `StoreError`. -/
def StoreError.kind : StoreError → String
  | .table _ => "Sql"
  | .time _ _ => "TimestampParse"
  | .environment _ => "Environment"
  | .directory _ _ => "CreateDir"
  | .poisoned => "Poisoned"
  | .task _ => "Task"

/-- The wording of a `StoreError`. -/
def StoreError.message : StoreError → String
  | .table fault => "sqlite error: " ++ fault.message
  | .time text cause => "timestamp parse error for value '" ++ text ++ "': " ++ cause.message
  | .environment word => "unknown push environment '" ++ word ++ "' in token store"
  | .directory path fault =>
    "failed to create token store directory " ++ path ++ ": " ++ fault.message
  | .poisoned => "token store lock poisoned"
  | .task reason => "token store task failed: " ++ reason

end Runwatch.Store
