/-
Runwatch.Push.Plan — what a delivery asks of the world, call by call.

A `Call` is a request to the world outside: to the store, to the signer or
to the push service; each has its own type of answers. A `Plan` makes calls
one after the other and goes on according to the answers. How the world
answers is not said here: `run` carries a plan out against a `Service`, and
a plan may as well be advanced call by call between the calls of others.
-/
import Runwatch.Push.ProviderToken
import Runwatch.Push.Reply
import Runwatch.Push.Request
import Runwatch.Store.Error

namespace Runwatch.Push

open Store (StoreError)

/-- What can be asked of the world. -/
inductive Call where
  /-- The active tokens of a user. -/
  | list (user : UserId)
  /-- A provider token that holds from now on. -/
  | mint
  /-- A session with the service of a tier. -/
  | openSession (environment : Environment)
  /-- The reply to a request, in the session of its tier. -/
  | send (environment : Environment) (request : Request)
  /-- To end the use of a token. -/
  | mark (token reason : String)
  /-- To end the session. -/
  | close (environment : Environment)
  deriving DecidableEq, Repr

/-- The answers to a call. -/
abbrev Call.Answer : Call → Type
  | .list _ => Except StoreError (List ActiveToken)
  | .mint => Except PushError ProviderToken
  | .openSession _ => Except PushError Unit
  | .send _ _ => Except PushError Reply
  | .mark _ _ => Except StoreError Bool
  | .close _ => Unit

/-- Calls one after the other, and in the end a result. -/
inductive Plan (α : Type) where
  | done (result : α)
  | ask (call : Call) (next : call.Answer → Plan α)

/-- How a world with states of type `σ` answers calls. -/
def Service (σ : Type) : Type := (c : Call) → σ → c.Answer × σ

namespace Plan

/-- One call. -/
def call (c : Call) : Plan c.Answer := .ask c .done

/-- A plan that goes on after another one. -/
def bind : Plan α → (α → Plan β) → Plan β
  | .done a, f => f a
  | .ask c next, f => .ask c fun answer => (next answer).bind f

instance : Monad Plan where
  pure := .done
  bind := bind

/-- Carries a plan out. -/
def run (service : Service σ) : Plan α → σ → α × σ
  | .done a, s => (a, s)
  | .ask c next, s =>
    let (answer, s) := service c s
    (next answer).run service s

end Plan

end Runwatch.Push
