/-
Runwatch.Json.Decode — reading domain types out of JSON values.

A record is read from an object, whose members are looked at in their
order and whose unknown members are passed over, or from an array that
lists the fields in order. What does not fit is a `DecodeError`; its
message names what was found and what was expected.
-/
import Runwatch.Json.Value
import Runwatch.Double.Shortest
import Runwatch.Text.Quoted

namespace Runwatch.Json

/-- What stood where something else was expected. -/
inductive Found where
  | null
  | bool (b : Bool)
  | integer (i : Int)
  | double (d : Double)
  | text (s : String)
  | sequence
  | map
  deriving Repr

/-- A step from a value to one inside it. -/
inductive Step where
  | member (name : String)
  | element (place : Nat)
  deriving DecidableEq, Repr

/-- Why a value does not fit a type. -/
inductive DecodeError where
  /-- A value of another kind. -/
  | wrongType (found : Found) (expected : String)
  /-- A value of the right kind that is not among those expected. -/
  | wrongValue (found : Found) (expected : String)
  /-- A sequence with the wrong number of elements. -/
  | wrongLength (length : Nat) (expected : String)
  /-- A word that names no alternative. -/
  | unknownVariant (name : String) (known : List String)
  | missingField (name : String)
  /-- A text that its own type refuses, with that type's reason. -/
  | refused (reason : String)
  /-- A value inside the one that is read does not fit. -/
  | inside (step : Step) (cause : DecodeError)
  deriving Repr

/-- Format decisions in which the documents that hold such values differ. -/
structure Dialect where
  /-- Which doubles a message writes without exponent. -/
  doubles : PointRange
  /-- Whether an array may have more elements than a record has fields. -/
  allowsExtra : Bool

/-- Values of JSON texts. -/
def jsonDialect : Dialect := ⟨⟨-4, 16⟩, false⟩

/-- What a value is called where it was not expected. -/
def Value.found : Value → Found
  | .null => .null
  | .bool b => .bool b
  | .number (.natural n) => .integer n.toNat
  | .number (.negative below) => .integer (-(below.val + 1 : Nat))
  | .number (.double d) => .double d
  | .string s => .text s
  | .array _ => .sequence
  | .object _ => .map

/-- The wording of a `Found`. -/
def Found.describe (doubles : PointRange) : Found → String
  | .null => "null"
  | .bool b => "boolean `" ++ (if b then "true" else "false") ++ "`"
  | .integer i => "integer `" ++ Text.signedDecimal i ++ "`"
  | .double d => "floating point `" ++ String.ofList (d.chars doubles) ++ "`"
  | .text s => "string " ++ Text.quoted s
  | .sequence => "sequence"
  | .map => "map"

/-- The words of a choice, each between grave accents. -/
def listed : List String → String
  | [a] => "`" ++ a ++ "`"
  | [a, b] => "`" ++ a ++ "` or `" ++ b ++ "`"
  | words => "one of " ++ String.intercalate ", " (words.map fun w => "`" ++ w ++ "`")

/-- The wording of a `DecodeError`. -/
def DecodeError.message (doubles : PointRange) : DecodeError → String
  | .wrongType found expected => "invalid type: " ++ found.describe doubles ++ ", expected " ++ expected
  | .wrongValue found expected => "invalid value: " ++ found.describe doubles ++ ", expected " ++ expected
  | .wrongLength n expected => "invalid length " ++ Text.decimal n ++ ", expected " ++ expected
  | .unknownVariant name known => "unknown variant `" ++ name ++ "`, expected " ++ listed known
  | .missingField name => "missing field `" ++ name ++ "`"
  | .refused reason => reason
  | .inside _ cause => cause.message doubles

/-- The steps to the value that does not fit. -/
def DecodeError.path : DecodeError → List Step
  | .inside step cause => step :: cause.path
  | _ => []

/-- Says of an error that it arose one step inside. -/
def reached (step : Step) : Except DecodeError α → Except DecodeError α
  | .ok a => .ok a
  | .error e => .error (.inside step e)

/-- Reads a value of type `α`. -/
abbrev Decoder (α : Type) := Value → Except DecodeError α

/-- A value of the wrong kind. -/
def mismatch (expected : String) (v : Value) : Except DecodeError α :=
  .error (.wrongType v.found expected)

namespace Decoder

/-- Reads a text; `expected` names it in a message. -/
def textAs (expected : String) : Decoder String
  | .string s => .ok s
  | v => mismatch expected v

/-- Reads a text. -/
def text : Decoder String := textAs "a string"

/-- Reads the text of a file system path. -/
def path : Decoder String := textAs "path string"

/-- Reads a natural number of 64 bits. -/
def word : Decoder UInt64
  | .number (.natural n) => .ok n
  | .number (.negative below) => .error (.wrongValue (Value.number (.negative below)).found "u64")
  | v => mismatch "u64" v

/-- Reads any value. -/
def any : Decoder Value := .ok

/-- Reads the members of an object. -/
def members : Decoder Members
  | .object ms => .ok ms
  | v => mismatch "a map" v

/-- Null stands for an absent value. -/
def nullable (d : Decoder α) : Decoder (Option α)
  | .null => .ok none
  | v => (d v).map some

/-- Reads every element of an array. -/
def list (d : Decoder α) : Decoder (List α)
  | .array vs => vs.mapM d
  | v => mismatch "a sequence" v

/-- Null. -/
def isNull : Value → Bool
  | .null => true
  | _ => false

/-- Null, or an object without members. -/
def isVoid : Value → Bool
  | .null => true
  | .object [] => true
  | _ => false

/-- Reads one of a few words, or an object whose only member has such a
name and a value that is `empty`. -/
def choice (empty : Value → Bool) (variants : List (String × α)) : Decoder α :=
  let pick (name : String) : Except DecodeError α :=
    match variants.lookup name with
    | some a => .ok a
    | none => .error (.unknownVariant name (variants.map (·.1)))
  fun
  | .string s => pick s
  | .object [(name, v)] => do
    let a ← pick name
    if empty v then .ok a else mismatch "unit" v
  | .object _ => .error (.wrongValue .map "map with a single key")
  | v => mismatch "string or map" v

end Decoder

/-! ## Records -/

/-- What the fields of a record are read from. -/
inductive Source where
  /-- Members by name. -/
  | members (ms : Members)
  /-- Elements by place; `expected` names the record and its size. -/
  | elements (expected : String) (vs : List Value)

namespace Source

/-- Reads a field that must be there. -/
def required (s : Source) (place : Nat) (name : String) (d : Decoder α) : Except DecodeError α :=
  match s with
  | .members ms => match Members.get? ms name with
    | some v => d v
    | none => .error (.missingField name)
  | .elements expected vs => match vs[place]? with
    | some v => reached (.element place) (d v)
    | none => .error (.wrongLength place expected)

/-- Reads a field that may be null, and absent from an object. -/
def nullable (s : Source) (place : Nat) (name : String) (d : Decoder α) :
    Except DecodeError (Option α) :=
  match s with
  | .members ms => match Members.get? ms name with
    | some v => d.nullable v
    | none => .ok none
  | .elements expected vs => match vs[place]? with
    | some v => reached (.element place) (d.nullable v)
    | none => .error (.wrongLength place expected)

/-- Reads a field that has a default. -/
def defaulted (s : Source) (place : Nat) (name : String) (d : Decoder α) (default : α) :
    Except DecodeError α :=
  match s with
  | .members ms => match Members.get? ms name with
    | some v => d v
    | none => .ok default
  | .elements _ vs => match vs[place]? with
    | some v => reached (.element place) (d v)
    | none => .ok default

end Source

/-- A field's name and the check of its value. -/
abbrev FieldCheck := String × (Value → Except DecodeError Unit)

/-- The check that a decoder accepts a value. -/
def field (name : String) (d : Decoder α) : FieldCheck := (name, fun v => (d v).map fun _ => ())

/-- Checks the known members in the order in which they stand. -/
def checkMembers (fields : List FieldCheck) (ms : Members) : Except DecodeError Unit :=
  ms.forM fun (name, v) => match fields.lookup name with
    | some check => reached (.member name) (check v)
    | none => .ok ()

/-- `n elements`, in the singular for one. -/
def elementCount (n : Nat) : String :=
  Text.decimal n ++ (if n == 1 then " element" else " elements")

/-- Reads a record called `title` with the given fields. -/
def record (dialect : Dialect) (title : String) (fields : List FieldCheck)
    (build : Source → Except DecodeError α) : Decoder α
  | .object ms => do
    checkMembers fields ms
    build (.members ms)
  | .array vs => do
    let a ← build (.elements ("struct " ++ title ++ " with " ++ elementCount fields.length) vs)
    if vs.length > fields.length && !dialect.allowsExtra then
      .error (.wrongLength vs.length "fewer elements in array")
    else .ok a
  | v => mismatch ("struct " ++ title) v

/-! ## Tagged alternatives -/

/-- One alternative of a tagged type: its word, its name in messages, its
fields and its reader. -/
structure Alternative (α : Type) where
  word : String
  title : String
  fields : List FieldCheck
  build : Source → Except DecodeError α

/-- Reads the alternative that the word `v` names. -/
def Alternative.pick (alternatives : List (Alternative α)) (v : Value) :
    Except DecodeError (Alternative α) :=
  match v with
  | .string s =>
    match alternatives.find? (·.word == s) with
    | some a => .ok a
    | none => .error (.unknownVariant s (alternatives.map (·.word)))
  | v => mismatch "variant identifier" v

/-- Reads a tagged type: an object with the word under `tag`, or an array
that begins with the word. -/
def tagged (title tag : String) (alternatives : List (Alternative α)) : Decoder α
  | .object ms =>
    match Members.get? ms tag with
    | none => .error (.missingField tag)
    | some word => do
      let a ← Alternative.pick alternatives word
      checkMembers a.fields (ms.filter (·.1 != tag))
      a.build (.members (ms.filter (·.1 != tag)))
  | .array [] => .error (.missingField tag)
  | .array (word :: vs) => do
    let a ← Alternative.pick alternatives word
    let size := a.fields.length
    let expected := "struct variant " ++ title ++ "::" ++ a.title ++ " with " ++ elementCount size
    let value ← a.build (.elements expected vs)
    if vs.length > size then
      .error (.wrongLength vs.length (elementCount size ++ " in sequence"))
    else .ok value
  | v => mismatch ("internally tagged enum " ++ title) v

/-! ## Member order -/

mutual

/-- The same value with the members of all objects in the order of their
names. -/
def Value.sorted : Value → Value
  | .array vs => .array (sortedElements vs)
  | .object ms => .object (sortedMembers ms)
  | v => v

/-- `Value.sorted` of every element. -/
def sortedElements : List Value → List Value
  | [] => []
  | v :: vs => v.sorted :: sortedElements vs

/-- Members in order, each with its value sorted. -/
def sortedMembers : List (String × Value) → Members
  | [] => []
  | (name, v) :: ms =>
    let rest := sortedMembers ms
    if (Members.get? rest name).isSome then rest else Members.insert name v.sorted rest

end

end Runwatch.Json
