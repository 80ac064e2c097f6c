/-
Runwatch.Token.Environment — the two tiers of the push service.

A device token belongs to one tier, and each tier has its own host. The
word of a tier is read without regard to letter case and surrounding
blanks; `sandbox` is another word for the development tier.
-/
import Runwatch.Json.Decode
import Runwatch.Text.Blank
import Runwatch.Text.Lowercase

namespace Runwatch

/-- A tier of the push service. -/
inductive Environment where
  | development
  | production
  deriving DecidableEq, Repr, Inhabited

/-- A word that names no tier, trimmed and in lower case. -/
structure UnknownEnvironment where
  word : String
  deriving DecidableEq, Repr

/-- The wording of an `UnknownEnvironment`. -/
def UnknownEnvironment.message (e : UnknownEnvironment) : String :=
  "invalid push environment '" ++ e.word ++ "'. valid values: development, production"

namespace Environment

/-- Both tiers in the order in which they are served. -/
def all : List Environment := [.development, .production]

/-- The tier that is meant where none is named. -/
def standard : Environment := .production

/-- The word of a tier. -/
def word : Environment → String
  | .development => "development"
  | .production => "production"

/-- The host that serves a tier. -/
def host : Environment → String
  | .development => "api.sandbox.push.apple.com"
  | .production => "api.push.apple.com"

/-- The tier that a text names. -/
def parse (text : String) : Except UnknownEnvironment Environment :=
  let word := Text.lowercase (Text.trimmed text)
  if word == "development" || word == "sandbox" then .ok .development
  else if word == "production" then .ok .production
  else .error ⟨word⟩

/-- A tier as a JSON value. -/
def toJson (e : Environment) : Json.Value := .string e.word

/-- Reads a tier's word as it is written. -/
def ofJson : Json.Decoder Environment :=
  .choice Json.Decoder.isNull (all.map fun e => (e.word, e))

end Environment

end Runwatch
