/-
Runwatch.Push.Service — a world in which deliveries take place.

A delivery needs a token store, the signer of a dispatcher, a clock and a
`Transport` to the push service; `serviceOf` answers the calls of a plan
with them. `recorded` keeps a journal of the calls with their answers.
-/
import Runwatch.Push.Dispatch
import Runwatch.Push.Exchange
import Runwatch.Store.Interface

namespace Runwatch.Push

open Store (Interface)
open Time (Instant)

/-- The way to the push service, with states of type `τ`. -/
structure Transport (τ : Type) where
  /-- Opens the session of a tier. -/
  openSession : Environment → τ → Except PushError Unit × τ
  /-- Sends a request in the session of a tier. -/
  send : Environment → Request → τ → Except PushError Reply × τ
  /-- Ends the session of a tier. -/
  close : Environment → τ → τ

/-- A token store, the state of a transport and the time. -/
structure World (σ τ : Type) where
  store : σ
  network : τ
  now : Instant

/-- How calls are answered. -/
def serviceOf (i : Interface σ) (d : Dispatcher) (t : Transport τ) : Service (World σ τ)
  | .list user, w => (i.active user w.store, w)
  | .mint, w => (d.mintAt w.now, w)
  | .openSession e, w =>
    let (answer, network) := t.openSession e w.network
    (answer, { w with network := network })
  | .send e request, w =>
    let (answer, network) := t.send e request w.network
    (answer, { w with network := network })
  | .mark token reason, w =>
    let (store, answer) := i.mark w.now token reason w.store
    (answer, { w with store := store })
  | .close e, w => ((), { w with network := t.close e w.network })

/-- A transport over HTTP that reaches each tier at its address; `deliver`
is what the network does with a request. -/
def httpTransport (endpoint : Endpoint) (deliver : Net.HttpRequest → Delivery) :
    Transport Unit where
  openSession _ s := (.ok (), s)
  send e request s := (request.exchange (endpoint.base e) deliver, s)
  close _ s := s

/-! ## Journals -/

/-- A call with its answer. -/
structure Entry where
  call : Call
  answer : call.Answer

/-- The service with a journal of what it has answered. -/
def Service.recorded (service : Service σ) : Service (σ × List Entry) :=
  fun c s =>
    let (answer, next) := service c s.1
    (answer, next, s.2 ++ [⟨c, answer⟩])

end Runwatch.Push
