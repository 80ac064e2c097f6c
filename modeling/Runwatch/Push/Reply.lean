/-
Runwatch.Push.Reply — what the push service answers.

An answer has a status and may have an id and a reason; the reason stands
in a JSON body, of which nothing else is looked at. The outcome says what
the answer means for the device token.
-/
import Runwatch.Json.Skim

namespace Runwatch.Push

open Json (Value)

/-- An answer of the push service. -/
structure Reply where
  status : Nat
  reason : Option String
  id : Option String
  deriving DecidableEq, Repr

/-- What an answer means for the device token. -/
inductive Outcome where
  | delivered
  /-- The token must not be used again. -/
  | invalidToken (reason : String)
  /-- Not delivered, for a reason that is not the token's. -/
  | rejected (status : Nat) (reason : Option String)
  deriving DecidableEq, Repr

/-- The reason that a body gives. -/
def reasonOf (body : List UInt8) : Option String :=
  if body.isEmpty then none else (Json.Skim.textMember? "reason" body).join

/-- An answer with its body read. -/
def Reply.ofParts (status : Nat) (id : Option String) (body : List UInt8) : Reply :=
  ⟨status, reasonOf body, id⟩

/-- The reasons that end a token's use. -/
def invalidatingReasons : List String := ["Unregistered", "BadDeviceToken"]

/-- What an answer means. -/
def Reply.outcome (r : Reply) : Outcome :=
  if 200 ≤ r.status && r.status < 300 then .delivered
  else if r.status == 410 || r.reason.any (invalidatingReasons.contains ·) then
    .invalidToken (r.reason.getD ("status " ++ Text.decimal r.status))
  else .rejected r.status r.reason

/-- An outcome as a JSON value. -/
def Outcome.toJson : Outcome → Value
  | .delivered => .string "delivered"
  | .invalidToken reason => .object [("invalid_token", .string reason)]
  | .rejected status reason =>
    .object [("rejected", .array [Value.ofNat status, Value.ofString? reason])]

/-- An answer with its outcome as a JSON value. -/
def Reply.toJson (r : Reply) : Value :=
  .object
    [("status", Value.ofNat r.status), ("reason", Value.ofString? r.reason),
     ("apns_id", Value.ofString? r.id), ("outcome", r.outcome.toJson)]

/-- The id of an answer: the first header of that name, if it is visible. -/
def visibleHeader? (value : List UInt8) : Option String :=
  if value.all fun b => b == 9 || (32 ≤ b && b < 127) then
    some (String.ofList (value.map fun b => Char.ofNat b.toNat))
  else none

/-- The name of the header that holds the id. -/
def idHeader : String := "apns-id"

/-- The id among headers, whose names are in lower case. -/
def idOfHeaders (headers : List (String × List UInt8)) : Option String :=
  (headers.lookup idHeader).bind visibleHeader?

end Runwatch.Push
