/-
Runwatch.Push.ProviderToken — the signed token that a provider shows.

A token has three parts, a header, claims and a signature of the two, each
in the alphabet for headers. It says who issued it and from when to when it
holds; it is not shown again after that.
-/
import Runwatch.Config.Credentials
import Runwatch.Crypto.PrivateKey
import Runwatch.Json.Writer
import Runwatch.Push.Error
import Runwatch.Time.Instant

namespace Runwatch.Push

open Json (Value)
open Time (Instant)

/-- A provider with its key. -/
structure Signer where
  team : String
  keyId : String
  key : Crypto.SigningKey

/-- A signed token and the time in which it holds. -/
structure ProviderToken where
  text : String
  issuedAt : Instant
  expiresAt : Instant
  deriving DecidableEq, Repr

/-- Why no token is minted. -/
inductive MintError where
  /-- The end of the token's time is beyond the calendar. -/
  | beyondCalendar
  | push (cause : PushError)
  deriving DecidableEq, Repr

/-- How many seconds a token holds. -/
def lifetimeSecs : Int := 3000

/-- Whether a token still holds at a time. -/
def ProviderToken.isValidAt (t : ProviderToken) (now : Instant) : Bool := now.before t.expiresAt

namespace Signer

/-- The provider of some credentials. -/
def ofCredentials (c : Credentials) : Except PushError Signer :=
  match Crypto.SigningKey.ofText? c.privateKey with
  | some key => .ok ⟨c.team, c.keyId, key⟩
  | none => .error (.invalidKey "not a private key for the curve P-256")

/-- A provider as diagnostics show it, without the key. -/
def describe (s : Signer) : String :=
  "ApnsSigner \x7b team_id: " ++ Text.quoted s.team ++ ", key_id: " ++ Text.quoted s.keyId
    ++ ", .. \x7d"

/-- A whole number as a JSON value, as far as 64 bits go. -/
def secondValue (i : Int) : Value :=
  match i with
  | .ofNat n => Value.ofNat n
  | .negSucc n => if h : n < Json.negatives then .number (.negative ⟨n, h⟩) else .null

/-- The header of a token. -/
def header (s : Signer) : Value :=
  .object [("alg", .string "ES256"), ("kid", .string s.keyId)]

/-- The claims of a token. -/
def claims (s : Signer) (issuedAt expiresAt : Instant) : Value :=
  .object
    [("exp", secondValue expiresAt.secs), ("iat", secondValue issuedAt.secs), ("iss", .string s.team)]

/-- A part of a token. -/
def segment (bytes : List UInt8) : List Char := Text.Base64.encode Text.Base64.url bytes

/-- The part of a token that holds a value. -/
def valueSegment (v : Value) : List Char := segment (Text.Utf8.bytes (Json.compact v))

/-- The two parts that are signed, with the point between them. -/
def signedPart (s : Signer) (issuedAt expiresAt : Instant) : List Char :=
  valueSegment s.header ++ '.' :: valueSegment (s.claims issuedAt expiresAt)

/-- Mints a token. -/
def mint (s : Signer) (issuedAt : Instant) : Except MintError ProviderToken :=
  match issuedAt.after? lifetimeSecs with
  | none => .error .beyondCalendar
  | some expiresAt =>
    let part := s.signedPart issuedAt expiresAt
    match s.key.sign? (Text.Utf8.encode part) with
    | none => .error (.push (.signing "no signature"))
    | some signature =>
      .ok ⟨String.ofList (part ++ '.' :: segment signature.bytes), issuedAt, expiresAt⟩

end Signer

/-! ## Reading a token -/

/-- The parts of a token. -/
def tokenParts (token : String) : List String := (token.toList.splitOn '.').map String.ofList

/-- The text that a part of a token holds. -/
def partText? (part : String) : Option String :=
  (Text.Base64.decode? Text.Base64.url part.toList).bind Text.Utf8.text?

/-- Whether the last part of a token signs the others. -/
def Signer.hasSigned (s : Signer) (token : String) : Bool :=
  match tokenParts token, s.key.publicPoint? with
  | [header, claims, signature], some point =>
    match (Text.Base64.decode? Text.Base64.url signature.toList).bind Crypto.Signature.ofBytes? with
    | some g => Crypto.verifies point (Text.Utf8.bytes (header ++ "." ++ claims)) g
    | none => false
  | _, _ => false

/-- What a token says, as a reader finds it. -/
structure Reading where
  parts : Nat
  header : Option String
  claims : Option String
  verified : Bool
  deriving DecidableEq, Repr

/-- Reads a token that should be of this provider. -/
def Signer.read (s : Signer) (token : String) : Reading :=
  let parts := tokenParts token
  ⟨parts.length, partText? (parts.getD 0 ""), partText? (parts.getD 1 ""), s.hasSigned token⟩

end Runwatch.Push
