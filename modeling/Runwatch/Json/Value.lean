/-
Runwatch.Json.Value — JSON values.

A number written without fraction and exponent is kept as an integer of 64
bits if it fits, any other number is a double. The members of an object are
kept in the order of their names, each name once; names are compared by
code point, which is also the order of their bytes.
-/
import Runwatch.Double.Basic

namespace Runwatch.Json

/-- How many negative integers a word of 64 bits has. -/
abbrev negatives : Nat := 9223372036854775808

/-- A JSON number. -/
inductive Number where
  /-- A natural number of at most 64 bits. -/
  | natural (n : UInt64)
  /-- The negative integer `-1 - below`. -/
  | negative (below : Fin negatives)
  /-- Any other number. -/
  | double (d : Double)
  deriving DecidableEq, Repr

/-- A JSON value. -/
inductive Value where
  | null
  | bool (b : Bool)
  | number (n : Number)
  | string (s : String)
  | array (elements : List Value)
  | object (members : List (String × Value))
  deriving BEq, Repr, Inhabited

/-- The members of an object. -/
abbrev Members := List (String × Value)

/-- The member called `name`. -/
def Members.get? (ms : Members) (name : String) : Option Value :=
  ms.lookup name

/-- `ms` with the member `name` set to `v`, in its place by name. -/
def Members.insert (name : String) (v : Value) : Members → Members
  | [] => [(name, v)]
  | (n, w) :: rest =>
    if name < n then (name, v) :: (n, w) :: rest
    else if name == n then (name, v) :: rest
    else (n, w) :: Members.insert name v rest

/-- Members in the order of their names, of equal names the last. -/
def Members.ofList (entries : List (String × Value)) : Members :=
  entries.foldl (fun ms (name, v) => Members.insert name v ms) []

namespace Value

/-- A natural number as a JSON value. -/
def ofWord (n : UInt64) : Value := .number (.natural n)

/-- A natural number as a JSON value; numbers beyond 64 bits wrap around. -/
def ofNat (n : Nat) : Value := .number (.natural (UInt64.ofNat n))

/-- A text, or null. -/
def ofString? : Option String → Value
  | some s => .string s
  | none => .null

/-- A number, or null. -/
def ofWord? : Option UInt64 → Value
  | some n => ofWord n
  | none => .null

/-- The text of a string value. -/
def text? : Value → Option String
  | .string s => some s
  | _ => none

/-- The members of an object value. -/
def members? : Value → Option Members
  | .object ms => some ms
  | _ => none

/-- The member called `name` of an object value. -/
def member? (v : Value) (name : String) : Option Value :=
  v.members?.bind fun ms => Members.get? ms name

/-- An object value with one more member behind the others. -/
def withMember (v : Value) (name : String) (member : Value) : Value :=
  match v with
  | .object ms => .object (ms ++ [(name, member)])
  | v => v

end Value

end Runwatch.Json
