/-
Runwatch.Cli.KeyValue — entries written as a key and a value.

The first equals sign ends the key. The key loses the blanks around it and
must not be empty then; the value is taken as it is.
-/
import Runwatch.Text.Blank

namespace Runwatch.Cli

/-- Why a text is no entry. -/
inductive EntryError where
  /-- There is no equals sign. -/
  | noSign (text : String)
  /-- Nothing is left of the key. -/
  | noKey (text : String)
  deriving DecidableEq, Repr

/-- The wording of an `EntryError`. -/
def EntryError.message : EntryError → String
  | .noSign text => "expected key=value, got '" ++ text ++ "'"
  | .noKey text => "empty key in '" ++ text ++ "'"

/-- A text cut at its first equals sign. -/
def cutAtSign (cs : List Char) : Option (List Char × List Char) :=
  match cs.dropWhile (· != '=') with
  | [] => none
  | _ :: value => some (cs.takeWhile (· != '='), value)

/-- Reads an entry. -/
def parseEntry (text : String) : Except EntryError (String × String) :=
  match cutAtSign text.toList with
  | none => .error (.noSign text)
  | some (key, value) =>
    match Text.nonBlank? (String.ofList key) with
    | none => .error (.noKey text)
    | some key => .ok (key, String.ofList value)

end Runwatch.Cli
