/-
Runwatch.Push.Request — what is sent to the push service for one token.

A request goes to a path that ends in the device token. Its headers name
the provider and the application, and its body is the wire form of a
payload.
-/
import Runwatch.Push.Payload
import Runwatch.Token.Record

namespace Runwatch.Push

open Json (Value)

/-- A request for one device token. -/
structure Request where
  token : String
  provider : String
  topic : String
  body : String
  deriving DecidableEq, Repr

/-- The request that tells a device of a body. -/
def Request.ofToken (t : ActiveToken) (provider body : String) : Request :=
  ⟨t.token, provider, t.bundle, body⟩

/-- The path of a request. -/
def Request.path (r : Request) : String := "/3/device/" ++ r.token

/-- The headers of a request, in their order. -/
def Request.headers (r : Request) : List (String × String) :=
  [("authorization", "bearer " ++ r.provider), ("apns-topic", r.topic),
   ("apns-push-type", "alert"), ("apns-priority", "10")]

/-- A request as a JSON value. -/
def Request.toJson (r : Request) : Value :=
  .object
    [("path", .string r.path),
     ("headers", .array (r.headers.map fun (name, value) => .array [.string name, .string value])),
     ("body", .string r.body), ("topic", .string r.topic), ("device_token", .string r.token),
     ("provider_token", .string r.provider)]

/-- The text without the slashes at its end. -/
def withoutTrailingSlashes (s : String) : String :=
  String.ofList (s.toList.reverse.dropWhile (· == '/')).reverse

/-- Where requests go: the host of each tier, or one address for both. -/
structure Endpoint where
  override : Option String
  deriving DecidableEq, Repr

/-- The address to which the paths of requests are appended. -/
def Endpoint.base (e : Endpoint) (environment : Environment) : String :=
  match e.override with
  | some address => withoutTrailingSlashes address
  | none => "https://" ++ environment.host

end Runwatch.Push
