/-
Runwatch.Telemetry.Observers — who is told of an event.

A registry holds observers in the order in which they subscribed. A
dispatch takes those that are idle, tells each of the event, and puts back
those that nobody removed meanwhile; observers that subscribed meanwhile
come after them.

What an observer does when told is a `Script`: it may subscribe others,
unsubscribe, clear the registry, count it, dispatch another event, and act
on the world outside, one step after the other. So a callback may change
the registry that is running it. A dispatch inside a dispatch sees only the
observers that no dispatch is using.

`κ` is the type of observers, `ω` the world that they act on.
-/
import Runwatch.Telemetry.Event

namespace Runwatch.Telemetry

/-- The number of an observer. -/
abbrev ObserverId := Nat

/-- What an observer does when it is told of an event, step by step; in the
end the observer that it has become. -/
inductive Script (κ ω : Type) where
  | done (next : κ)
  | subscribe (observer : κ) (k : ObserverId → Script κ ω)
  | unsubscribe (id : ObserverId) (k : Bool → Script κ ω)
  | clear (k : Script κ ω)
  | count (k : Nat → Script κ ω)
  | dispatch (e : Event) (k : Script κ ω)
  | act (f : ω → ω) (k : ω → Script κ ω)

/-- How observers behave: what they do when told, and what happens to the
world when one is let go. -/
structure Behaviour (κ ω : Type) where
  react : κ → Event → Script κ ω
  release : κ → ω → ω

/-- The observers that are idle, the numbers of those that a running
dispatch uses, those of them that were removed meanwhile, and the next
number. -/
structure Registry (κ : Type) where
  idle : List (ObserverId × κ)
  inFlight : List ObserverId
  detached : List ObserverId
  next : ObserverId

/-- A registry with the world that its observers act on. -/
structure Hub (κ ω : Type) where
  registry : Registry κ
  world : ω

/-- The list without the element at place `i`; the last one moves there. -/
def swapRemove (xs : List α) (i : Nat) : List α :=
  match xs.getLast? with
  | some last => (xs.set i last).dropLast
  | none => []

namespace Registry

/-- No observers. -/
def empty : Registry κ := ⟨[], [], [], 0⟩

/-- How many observers are subscribed. -/
def count (r : Registry κ) : Nat := r.idle.length + r.inFlight.length - r.detached.length

/-- Adds an observer; gives its number. -/
def subscribe (r : Registry κ) (observer : κ) : Registry κ × ObserverId :=
  ({ r with idle := r.idle ++ [(r.next, observer)], next := r.next + 1 }, r.next)

/-- Parts a batch into the observers that stay and those that were removed
meanwhile, and strikes each of the latter off the numbers of the removed. -/
def settle (detached : List ObserverId) :
    List (ObserverId × κ) →
      List (ObserverId × κ) × List (ObserverId × κ) × List ObserverId
  | [] => ([], [], detached)
  | o :: rest =>
    match detached.idxOf? o.1 with
    | some place =>
      let (kept, gone, left) := settle (swapRemove detached place) rest
      (kept, o :: gone, left)
    | none =>
      let (kept, gone, left) := settle detached rest
      (o :: kept, gone, left)

end Registry

namespace Hub

/-- No observers, in a world. -/
def ofWorld (w : ω) : Hub κ ω := ⟨Registry.empty, w⟩

/-- Lets observers go. -/
def releaseAll (b : Behaviour κ ω) (gone : List (ObserverId × κ)) (w : ω) : ω :=
  gone.foldl (fun w o => b.release o.2 w) w

/-- Adds an observer; gives its number. -/
def subscribe (h : Hub κ ω) (observer : κ) : Hub κ ω × ObserverId :=
  let (r, id) := h.registry.subscribe observer
  ({ h with registry := r }, id)

/-- Removes an observer; tells whether it was subscribed. One that is being
told of an event stays until that is over. -/
def unsubscribe (b : Behaviour κ ω) (h : Hub κ ω) (id : ObserverId) : Hub κ ω × Bool :=
  let r := h.registry
  match r.idle.find? (·.1 == id) with
  | some gone =>
    (⟨{ r with idle := r.idle.eraseP (·.1 == id) }, releaseAll b [gone] h.world⟩, true)
  | none =>
    if r.inFlight.contains id && !r.detached.contains id then
      (⟨{ r with detached := r.detached ++ [id] }, h.world⟩, true)
    else (h, false)

/-- Removes all observers. -/
def clear (b : Behaviour κ ω) (h : Hub κ ω) : Hub κ ω :=
  let r := h.registry
  ⟨{ r with idle := [], detached := r.inFlight }, releaseAll b r.idle h.world⟩

/-- Takes the idle observers for a dispatch. -/
def takeBatch (h : Hub κ ω) : Hub κ ω × List (ObserverId × κ) :=
  let r := h.registry
  (⟨{ r with idle := [], inFlight := r.inFlight ++ r.idle.map (·.1) }, h.world⟩, r.idle)

/-- Ends a dispatch: the observers of its batch become idle again, those
that were removed are let go. -/
def mergeBatch (b : Behaviour κ ω) (h : Hub κ ω) (batch : List (ObserverId × κ)) : Hub κ ω :=
  let r := h.registry
  let (kept, gone, detached) := Registry.settle r.detached batch
  ⟨{ r with
      idle := kept ++ r.idle
      inFlight := r.inFlight.filter fun id => !batch.any (·.1 == id)
      detached := detached },
    releaseAll b gone h.world⟩

/-- Runs a script; `nested` runs a dispatch inside it. None if that does
not end. -/
def runScript (b : Behaviour κ ω) (nested : Event → Hub κ ω → Option (Hub κ ω)) :
    Script κ ω → Hub κ ω → Option (Hub κ ω × κ)
  | .done next, h => some (h, next)
  | .subscribe observer k, h =>
    let (h, id) := h.subscribe observer
    runScript b nested (k id) h
  | .unsubscribe id k, h =>
    let (h, removed) := h.unsubscribe b id
    runScript b nested (k removed) h
  | .clear k, h => runScript b nested k (h.clear b)
  | .count k, h => runScript b nested (k h.registry.count) h
  | .dispatch e k, h =>
    match nested e h with
    | some h => runScript b nested k h
    | none => none
  | .act f k, h => runScript b nested (k (f h.world)) { h with world := f h.world }

/-- Tells each observer of a batch of an event; gives what they have
become. -/
def runBatch (b : Behaviour κ ω) (nested : Event → Hub κ ω → Option (Hub κ ω)) (e : Event) :
    List (ObserverId × κ) → Hub κ ω → Option (Hub κ ω × List (ObserverId × κ))
  | [], h => some (h, [])
  | (id, observer) :: rest, h => do
    let (h, next) ← runScript b nested (b.react observer e) h
    let (h, later) ← runBatch b nested e rest h
    pure (h, (id, next) :: later)

/-- Tells all idle observers of an event. `depth` bounds how many
dispatches may run inside one another; none if they are more. -/
def dispatch (b : Behaviour κ ω) : Nat → Event → Hub κ ω → Option (Hub κ ω)
  | 0, _, _ => none
  | depth + 1, e, h => do
    let (h, batch) := h.takeBatch
    let (h, batch) ← runBatch b (dispatch b depth) e batch h
    pure (h.mergeBatch b batch)

end Hub

/-! ## Kinds of observers -/

/-- An observer that has a handler for each kind of event and ignores the
kinds without one. -/
structure Handlers (ω : Type) where
  onNextSpeaker : Option (Speaker → ω → ω)
  onTaskComplete : Option (CompletionEvent → ω → ω)
  onFinish : Option (CompletionEvent → ω → ω)
  onConversation : Option (CompletionEvent → ω → ω)
  onOther : Option (Json.Value → ω → ω)

/-- No handlers. -/
def Handlers.silent : Handlers ω := ⟨none, none, none, none, none⟩

/-- What the handlers do with an event. -/
def Handlers.handle (h : Handlers ω) (e : Event) (w : ω) : ω :=
  match e with
  | .completion (.nextSpeakerCheck s) => (h.onNextSpeaker.map fun f => f s w).getD w
  | .completion (.agentCompleteTask t d) =>
    (h.onTaskComplete.map fun f => f (.agentCompleteTask t d) w).getD w
  | .completion (.agentFinish r t d) => (h.onFinish.map fun f => f (.agentFinish r t d) w).getD w
  | .completion (.conversationFinished t d) =>
    (h.onConversation.map fun f => f (.conversationFinished t d) w).getD w
  | .other raw => (h.onOther.map fun f => f raw w).getD w

end Runwatch.Telemetry
