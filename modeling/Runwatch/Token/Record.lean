/-
Runwatch.Token.Record — device tokens and who they belong to.

A `DeviceToken` is what a store knows about one token, an `ActiveToken`
what is needed to address a notification to it, and a `Registration` what a
device sends to enter itself. Each has a JSON form with its fields in this
order.
-/
import Runwatch.Time.Rfc3339
import Runwatch.Token.Environment

namespace Runwatch

open Json (Decoder Value field record jsonDialect)
open Time (Instant)

/-- The name of a task run. -/
structure TaskRunId where
  text : String
  deriving DecidableEq, Repr

/-- The name of a user. -/
structure UserId where
  text : String
  deriving DecidableEq, Repr

/-- A task run's name as a JSON value. -/
def TaskRunId.toJson (id : TaskRunId) : Value := .string id.text

/-- Reads a task run's name. -/
def TaskRunId.ofJson : Decoder TaskRunId := fun v => (Decoder.text v).map TaskRunId.mk

/-- A user's name as a JSON value. -/
def UserId.toJson (id : UserId) : Value := .string id.text

/-- Reads a user's name. -/
def UserId.ofJson : Decoder UserId := fun v => (Decoder.text v).map UserId.mk

/-- An instant as a JSON value. -/
def instantToJson (t : Instant) : Value := .string t.zulu

/-- Reads an instant. -/
def instantOfJson : Decoder Instant
  | .string s => match Time.parseRelaxed s with
    | .ok t => .ok t
    | .error e => .error (.refused e.message)
  | v => Json.mismatch "an RFC 3339 formatted date and time string" v

/-- What a store knows about one token. A token without a time of
invalidation is active. -/
structure DeviceToken where
  token : String
  user : UserId
  environment : Environment
  bundle : String
  createdAt : Instant
  updatedAt : Instant
  invalidatedAt : Option Instant
  invalidatedReason : Option String
  deriving DecidableEq, Repr

/-- What is needed to address a notification. -/
structure ActiveToken where
  token : String
  environment : Environment
  bundle : String
  deriving DecidableEq, Repr

/-- What a device sends to enter its token. -/
structure Registration where
  token : String
  user : UserId
  environment : Environment
  bundle : String
  deriving DecidableEq, Repr

namespace DeviceToken

/-- Whether notifications may be sent to the token. -/
def isActive (t : DeviceToken) : Bool := t.invalidatedAt.isNone

/-- The part of a record that addresses a notification. -/
def toActive (t : DeviceToken) : ActiveToken := ⟨t.token, t.environment, t.bundle⟩

/-- A record as a JSON value, its times written by `time`. -/
def toJsonWith (time : Instant → Value) (t : DeviceToken) : Value :=
  .object
    [("token", .string t.token), ("user_id", t.user.toJson), ("environment", t.environment.toJson),
     ("bundle_id", .string t.bundle), ("created_at", time t.createdAt),
     ("updated_at", time t.updatedAt), ("invalidated_at", (t.invalidatedAt.map time).getD .null),
     ("invalidated_reason", Value.ofString? t.invalidatedReason)]

/-- A record as a JSON value. -/
def toJson (t : DeviceToken) : Value := t.toJsonWith instantToJson

/-- Reads a record. -/
def ofJson : Decoder DeviceToken :=
  record jsonDialect "DeviceToken"
    [field "token" Decoder.text, field "user_id" UserId.ofJson,
     field "environment" Environment.ofJson, field "bundle_id" Decoder.text,
     field "created_at" instantOfJson, field "updated_at" instantOfJson,
     field "invalidated_at" (Decoder.nullable instantOfJson),
     field "invalidated_reason" (Decoder.nullable Decoder.text)]
    fun s => do
      pure
        { token := ← s.required 0 "token" Decoder.text
          user := ← s.required 1 "user_id" UserId.ofJson
          environment := ← s.required 2 "environment" Environment.ofJson
          bundle := ← s.required 3 "bundle_id" Decoder.text
          createdAt := ← s.required 4 "created_at" instantOfJson
          updatedAt := ← s.required 5 "updated_at" instantOfJson
          invalidatedAt := ← s.nullable 6 "invalidated_at" instantOfJson
          invalidatedReason := ← s.nullable 7 "invalidated_reason" Decoder.text }

end DeviceToken

/-- An address as a JSON value. -/
def ActiveToken.toJson (t : ActiveToken) : Value :=
  .object
    [("token", .string t.token), ("environment", t.environment.toJson),
     ("bundle_id", .string t.bundle)]

/-- Reads an address. -/
def ActiveToken.ofJson : Decoder ActiveToken :=
  record jsonDialect "ActiveToken"
    [field "token" Decoder.text, field "environment" Environment.ofJson,
     field "bundle_id" Decoder.text]
    fun s => do
      pure
        { token := ← s.required 0 "token" Decoder.text
          environment := ← s.required 1 "environment" Environment.ofJson
          bundle := ← s.required 2 "bundle_id" Decoder.text }

/-- A registration as a JSON value. -/
def Registration.toJson (r : Registration) : Value :=
  .object
    [("token", .string r.token), ("user_id", r.user.toJson), ("environment", r.environment.toJson),
     ("bundle_id", .string r.bundle)]

/-- Reads a registration. -/
def Registration.ofJson : Decoder Registration :=
  record jsonDialect "TokenRegistration"
    [field "token" Decoder.text, field "user_id" UserId.ofJson,
     field "environment" Environment.ofJson, field "bundle_id" Decoder.text]
    fun s => do
      pure
        { token := ← s.required 0 "token" Decoder.text
          user := ← s.required 1 "user_id" UserId.ofJson
          environment := ← s.required 2 "environment" Environment.ofJson
          bundle := ← s.required 3 "bundle_id" Decoder.text }

/-- The tokens of each tier that has any, in the order of `Environment.all`;
within a tier their order is kept. -/
def groupByEnvironment (tokens : List ActiveToken) : List (Environment × List ActiveToken) :=
  (Environment.all.map fun e => (e, tokens.filter (·.environment == e))).filter (!·.2.isEmpty)

/-- The start of a token, as far as it may be shown. -/
def redacted (token : String) : String :=
  let shown := token.toList.take 8
  String.ofList (if shown.length < token.length then shown ++ ['…'] else shown)

end Runwatch
