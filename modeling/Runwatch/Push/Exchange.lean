/-
Runwatch.Push.Exchange — one request and its reply over HTTP.

What the network does with a request is a value, `Delivery`; an exchange
turns it into a reply or into the reason why there is none.
-/
import Runwatch.Net.Http
import Runwatch.Push.Error
import Runwatch.Push.Reply
import Runwatch.Push.Request

namespace Runwatch.Push

open Net (HttpRequest)

/-- What becomes of a request that is sent. -/
inductive Delivery where
  /-- No answer comes. -/
  | lost
  /-- An answer begins, but its body does not end. -/
  | cutShort
  | answered (status : Nat) (headers : List (String × List UInt8)) (body : List UInt8)
  deriving DecidableEq, Repr

/-- The HTTP request of a push request. -/
def Request.http (r : Request) (base : String) : Except PushError HttpRequest :=
  match HttpRequest.post (base ++ r.path) r.headers r.body with
  | .ok q => .ok q
  | .error e => .error (.transport ("invalid apns request: " ++ e.message))

/-- The reply that a delivery brings. -/
def replyTo (q : HttpRequest) : Delivery → Except PushError Reply
  | .lost => .error (.transport ("error sending request for url (" ++ q.url.text ++ ")"))
  | .cutShort =>
    .error (.transport "failed to read response body: error decoding response body")
  | .answered status headers body => .ok (.ofParts status (idOfHeaders headers) body)

/-- Sends a request and takes the reply. -/
def Request.exchange (r : Request) (base : String) (deliver : HttpRequest → Delivery) :
    Except PushError Reply := do
  let q ← r.http base
  replyTo q (deliver q)

end Runwatch.Push
