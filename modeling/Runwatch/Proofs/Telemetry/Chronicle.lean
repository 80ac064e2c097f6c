/-
Runwatch.Proofs.Telemetry.Chronicle — what can be seen at a registry.

A script is run again, with the dispatches inside it, and this time all that
happens at the registry is written down: who subscribes, what is answered,
where a dispatch begins and ends, and which observers it calls, each with the
registry as it stands behind that. What was written down stays if the run
does not end.

Writing it down changes nothing: the results are those of `Hub.runScript`
and `Hub.dispatch` (`result_ofScript`, `result_ofDispatch`).
-/
import Runwatch.Telemetry.Observers

namespace Runwatch.Telemetry

variable {κ ω α β : Type}

/-- What happens at a registry. -/
inductive Entry where
  | subscribed (id : ObserverId)
  | unsubscribed (id : ObserverId) (removed : Bool)
  | cleared
  | counted (n : Nat)
  /-- A dispatch begins. -/
  | opened (e : Event)
  /-- The innermost dispatch calls an observer. -/
  | called (id : ObserverId)
  /-- The observer that it called is done. -/
  | returned (id : ObserverId)
  /-- The innermost dispatch ends. -/
  | closed

/-- An entry, with the registry behind it. -/
structure Moment (κ : Type) where
  entry : Entry
  registry : Registry κ

/-- The moments of a run, and what it gives if it ends. -/
structure Chronicle (κ α : Type) where
  moments : List (Moment κ)
  result : Option α

namespace Chronicle

/-- The entries alone. -/
def entries (c : Chronicle κ α) : List Entry := c.moments.map (·.entry)

/-- A run that ends at once. -/
def ended (a : α) : Chronicle κ α := ⟨[], some a⟩

/-- One run and then another, which goes on from what the first one gives. -/
def bind (c : Chronicle κ α) (f : α → Chronicle κ β) : Chronicle κ β :=
  match c.result with
  | some a => ⟨c.moments ++ (f a).moments, (f a).result⟩
  | none => ⟨c.moments, none⟩

/-- An entry in front of a run. -/
def note (entry : Entry) (r : Registry κ) (c : Chronicle κ α) : Chronicle κ α :=
  ⟨⟨entry, r⟩ :: c.moments, c.result⟩

/-- A script; `nested` are the dispatches inside it. -/
def ofScript (b : Behaviour κ ω) (nested : Event → Hub κ ω → Chronicle κ (Hub κ ω)) :
    Script κ ω → Hub κ ω → Chronicle κ (Hub κ ω × κ)
  | .done next, h => .ended (h, next)
  | .subscribe observer k, h =>
    let (h, id) := h.subscribe observer
    (ofScript b nested (k id) h).note (.subscribed id) h.registry
  | .unsubscribe id k, h =>
    let (h, removed) := h.unsubscribe b id
    (ofScript b nested (k removed) h).note (.unsubscribed id removed) h.registry
  | .clear k, h => (ofScript b nested k (h.clear b)).note .cleared (h.clear b).registry
  | .count k, h =>
    (ofScript b nested (k h.registry.count) h).note (.counted h.registry.count) h.registry
  | .dispatch e k, h => (nested e h).bind fun h => ofScript b nested k h
  | .act f k, h => ofScript b nested (k (f h.world)) { h with world := f h.world }

/-- The calls of a dispatch to a batch of observers. -/
def ofBatch (b : Behaviour κ ω) (nested : Event → Hub κ ω → Chronicle κ (Hub κ ω)) (e : Event) :
    List (ObserverId × κ) → Hub κ ω → Chronicle κ (Hub κ ω × List (ObserverId × κ))
  | [], h => .ended (h, [])
  | (id, observer) :: rest, h =>
    ((ofScript b nested (b.react observer e) h).bind fun (h, next) =>
      ((ofBatch b nested e rest h).bind fun (h, later) =>
        .ended (h, (id, next) :: later)).note (.returned id) h.registry).note (.called id)
          h.registry

/-- A dispatch, with at most `depth` inside one another. -/
def ofDispatch (b : Behaviour κ ω) : Nat → Event → Hub κ ω → Chronicle κ (Hub κ ω)
  | 0, _, _ => ⟨[], none⟩
  | depth + 1, e, h =>
    let (h, batch) := h.takeBatch
    ((ofBatch b (ofDispatch b depth) e batch h).bind fun (h, batch) =>
      (ended (h.mergeBatch b batch)).note .closed (h.mergeBatch b batch).registry).note
        (.opened e) h.registry

/-- A whole run, from no observers on. -/
def ofRun (b : Behaviour κ ω) (depth : Nat) (script : Script κ ω) (w : ω) :
    Chronicle κ (Hub κ ω × κ) :=
  ofScript b (ofDispatch b depth) script (Hub.ofWorld w)

/-! ## The results are the same -/

@[simp] theorem result_ended (a : α) : (ended a : Chronicle κ α).result = some a := rfl

@[simp] theorem result_note (entry : Entry) (r : Registry κ) (c : Chronicle κ α) :
    (c.note entry r).result = c.result := rfl

@[simp] theorem result_bind (c : Chronicle κ α) (f : α → Chronicle κ β) :
    (c.bind f).result = c.result.bind fun a => (f a).result := by
  unfold bind
  cases c.result <;> rfl

@[simp] theorem entries_ended (a : α) : (ended a : Chronicle κ α).entries = [] := rfl

@[simp] theorem entries_note (entry : Entry) (r : Registry κ) (c : Chronicle κ α) :
    (c.note entry r).entries = entry :: c.entries := rfl

/-- What is written down of one run and then another. -/
theorem entries_bind {c : Chronicle κ α} {a : α} (h : c.result = some a)
    (f : α → Chronicle κ β) : (c.bind f).entries = c.entries ++ (f a).entries := by
  have hbind : c.bind f = ⟨c.moments ++ (f a).moments, (f a).result⟩ := by
    unfold bind
    rw [h]
  rw [hbind, entries, List.map_append]
  rfl

theorem result_ofScript (b : Behaviour κ ω) (nested : Event → Hub κ ω → Chronicle κ (Hub κ ω))
    (script : Script κ ω) (h : Hub κ ω) :
    (ofScript b nested script h).result
      = Hub.runScript b (fun e h => (nested e h).result) script h := by
  induction script generalizing h with
  | done next => rfl
  | subscribe observer k ih => simp only [ofScript, Hub.runScript, result_note, ih]
  | unsubscribe id k ih => simp only [ofScript, Hub.runScript, result_note, ih]
  | clear k ih => simp only [ofScript, Hub.runScript, result_note, ih]
  | count k ih => simp only [ofScript, Hub.runScript, result_note, ih]
  | dispatch e k ih =>
    simp only [ofScript, Hub.runScript, result_bind]
    cases (nested e h).result with
    | none => rfl
    | some h' => exact ih h'
  | act f k ih => simp only [ofScript, Hub.runScript, ih]

theorem result_ofBatch (b : Behaviour κ ω) (nested : Event → Hub κ ω → Chronicle κ (Hub κ ω))
    (e : Event) (batch : List (ObserverId × κ)) (h : Hub κ ω) :
    (ofBatch b nested e batch h).result
      = Hub.runBatch b (fun e h => (nested e h).result) e batch h := by
  induction batch generalizing h with
  | nil => rfl
  | cons o rest ih =>
    simp only [ofBatch, Hub.runBatch, result_note, result_bind, result_ofScript, ih, result_ended]
    rfl

theorem result_ofDispatch (b : Behaviour κ ω) (depth : Nat) (e : Event) (h : Hub κ ω) :
    (ofDispatch b depth e h).result = Hub.dispatch b depth e h := by
  induction depth generalizing e h with
  | zero => rfl
  | succ depth ih =>
    have hnested : (fun e h => (ofDispatch b depth e h).result) = Hub.dispatch b depth := by
      funext e h
      exact ih e h
    simp only [ofDispatch, Hub.dispatch, result_note, result_bind, result_ofBatch, hnested,
      result_ended]
    rfl

/-- Writing down what happens changes nothing. -/
theorem result_ofRun (b : Behaviour κ ω) (depth : Nat) (script : Script κ ω) (w : ω) :
    (ofRun b depth script w).result
      = Hub.runScript b (Hub.dispatch b depth) script (Hub.ofWorld w) := by
  have hnested : (fun e h => (ofDispatch b depth e h).result) = Hub.dispatch b depth := by
    funext e h
    exact result_ofDispatch b depth e h
  rw [ofRun, result_ofScript, hnested]

end Chronicle

end Runwatch.Telemetry
