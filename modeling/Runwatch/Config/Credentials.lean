/-
Runwatch.Config.Credentials — the provider's credentials for the push service.

They come from three environment variables. Blanks around a value do not
count, and without all three there are no credentials. A key on one line
has its line ends written as a backslash and the letter n.
-/
import Runwatch.Text.Blank
import Runwatch.Text.Quoted

namespace Runwatch

/-- What a provider proves itself with. -/
structure Credentials where
  team : String
  keyId : String
  privateKey : String
  deriving DecidableEq, Repr

/-- The variable that holds the team. -/
def teamVariable : String := "APNS_TEAM_ID"

/-- The variable that holds the name of the key. -/
def keyIdVariable : String := "APNS_KEY_ID"

/-- The variable that holds the key. -/
def privateKeyVariable : String := "APNS_PRIVATE_KEY"

/-- All variables that credentials come from. -/
def Credentials.variableNames : List String := [teamVariable, keyIdVariable, privateKeyVariable]

/-- Line ends for every backslash with the letter n. -/
def spelledLines : List Char → List Char
  | '\\' :: 'n' :: rest => '\n' :: spelledLines rest
  | c :: rest => c :: spelledLines rest
  | [] => []

/-- The credentials that variables hold. -/
def Credentials.ofLookup (value : String → Option String) : Option Credentials := do
  let team ← (value teamVariable).bind Text.nonBlank?
  let keyId ← (value keyIdVariable).bind Text.nonBlank?
  let key ← (value privateKeyVariable).bind Text.nonBlank?
  pure ⟨team, keyId, String.ofList (spelledLines key.toList)⟩

/-- Credentials as diagnostics show them, without the key. -/
def Credentials.describe (c : Credentials) : String :=
  "ApnsConfig \x7b team_id: " ++ Text.quoted c.team ++ ", key_id: " ++ Text.quoted c.keyId
    ++ ", private_key: \"<redacted>\" \x7d"

end Runwatch
