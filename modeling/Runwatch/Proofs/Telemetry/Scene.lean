/-
Runwatch.Proofs.Telemetry.Scene — a detector among those who use it.

Observers are told of an event one after the other, and between any two of
them, or while one of them is being told, anybody may subscribe, remove an
observer, stop the detector, or begin, look at or give up a wait. A scene is
the detector with the dispatch that is running and with the waits that
somebody still holds; its steps are these calls, in any order, and the
beginning, the tellings and the end of a dispatch.

  §1 Scenes     — the steps with what can be heard of them (`Happening`), and
                  runs of them.
  §2 Dispatches — a dispatch of the detector is a run of such steps
                  (`exists_run_dispatch`), whatever its observers do, as long
                  as they use the detector as others do (`Orderly`).
-/
import Runwatch.Telemetry.Detector

namespace Runwatch.Telemetry

variable {κ υ : Type}

/-! ## §1 Scenes -/

/-- A dispatch that is running. -/
structure Telling (κ : Type) where
  event : Event
  /-- Those that were told, as they have become. -/
  told : List (ObserverId × Observer κ)
  untold : List (ObserverId × Observer κ)

/-- A detector, the dispatch that it is running, and the waits that are
neither over nor given up. -/
structure Scene (κ υ : Type) where
  detector : Detector κ υ
  telling : Option (Telling κ)
  futures : List (ObserverId × Nat)

/-- What can be heard of a step. -/
inductive Happening where
  /-- A dispatch begins. -/
  | began (e : Event)
  /-- The test of the waiter with this mailbox is asked. -/
  | asked (key : Nat) (e : Event)
  | stopped
  /-- Somebody removes an observer by its number. -/
  | removed (id : ObserverId)
  | quiet

/-- Nobody but a waiter notices it. -/
def Happening.IsCalm (h : Happening) : Prop := h = .quiet ∨ ∃ key e, h = .asked key e

namespace Detector

/-- The detector with its registry and world in another state. -/
def withHub (d : Detector κ υ) (h : Hub (Observer κ) (Control υ)) : Detector κ υ :=
  { d with hub := h }

@[simp] theorem withHub_withHub (d : Detector κ υ) (h h' : Hub (Observer κ) (Control υ)) :
    (d.withHub h).withHub h' = d.withHub h' := rfl

def onUser (d : Detector κ υ) (f : υ → υ) : Detector κ υ :=
  d.withHub { d.hub with world := { d.hub.world with user := f d.hub.world.user } }

end Detector

namespace Scene

variable (b : Behaviour (Observer κ) (Control υ))

/-- A detector that nobody has used yet. -/
def ofPath (path : String) (user : υ) : Scene κ υ := ⟨.ofPath path user, none, []⟩

def registry (s : Scene κ υ) : Registry (Observer κ) := s.detector.hub.registry

def post (s : Scene κ υ) : Post := s.detector.hub.world.post

def isStopped (s : Scene κ υ) : Bool := s.detector.isStopped

/-- Somebody begins to wait. -/
def waitFor (s : Scene κ υ) (accepts : List Event → Event → Bool) : Scene κ υ × ObserverId × Nat :=
  let (d, id, key) := s.detector.waitFor b accepts
  ({ s with detector := d, futures := (id, key) :: s.futures }, id, key)

/-- A wait is over or given up. -/
def endWait (s : Scene κ υ) (id : ObserverId) (key : Nat) : Scene κ υ :=
  { s with detector := s.detector.endWait b id key, futures := s.futures.filter (· != (id, key)) }

/-- Somebody looks at a wait; one that finds an answer is over. -/
def poll (s : Scene κ υ) (id : ObserverId) (key : Nat) : Scene κ υ :=
  match s.detector.pollWait key with
  | (d, none) => { s with detector := d }
  | (d, some _) => { s with detector := d }.endWait b id key

def stop (s : Scene κ υ) : Scene κ υ := { s with detector := s.detector.stop b }

/-- A dispatch begins with the observers that are idle. -/
def opened (s : Scene κ υ) (e : Event) : Scene κ υ :=
  { s with
    detector := s.detector.withHub s.detector.hub.takeBatch.1
    telling := some ⟨e, [], s.detector.hub.takeBatch.2⟩ }

/-- A dispatch ends that has told these observers. -/
def closed (s : Scene κ υ) (told : List (ObserverId × Observer κ)) : Scene κ υ :=
  { s with
    detector := s.detector.withHub (s.detector.hub.mergeBatch b told)
    telling := none }

/-- The steps. What an observer of another kind does while it is told are
steps of its own; in the end it may have become any other. -/
inductive Step : Scene κ υ → Happening → Scene κ υ → Prop where
  | subscribe {s} (o : κ) :
      Step s .quiet { s with detector := (s.detector.subscribe (.custom o)).1 }
  | unsubscribe {s} (id : ObserverId) :
      Step s (.removed id) { s with detector := (s.detector.unsubscribe b id).1 }
  | stop {s} : Step s .stopped (s.stop b)
  | waitFor {s} (accepts : List Event → Event → Bool) : Step s .quiet (s.waitFor b accepts).1
  | poll {s id key} (h : (id, key) ∈ s.futures) : Step s .quiet (s.poll b id key)
  | giveUp {s id key} (h : (id, key) ∈ s.futures) : Step s .quiet (s.endWait b id key)
  /-- Something happens to neither the registry, nor the mailboxes, nor
  whether the detector is stopped: it is started, its loop reads, and so on. -/
  | other {s} (d : Detector κ υ) (hregistry : d.hub.registry = s.registry)
      (hpost : d.hub.world.post = s.post) (hstopped : d.isStopped = s.isStopped) :
      Step s .quiet { s with detector := d }
  | opens {s} (e : Event) (h : s.telling = none) : Step s (.began e) (s.opened e)
  | tellsCustom {s e told untold} {id : ObserverId} {o : κ} (next : κ)
      (h : s.telling = some ⟨e, told, (id, .custom o) :: untold⟩) :
      Step s .quiet { s with telling := some ⟨e, told ++ [(id, .custom next)], untold⟩ }
  | tellsWaiter {s e told untold id key accepts asked fired hub next}
      (h : s.telling = some ⟨e, told, (id, .waiter key accepts asked fired) :: untold⟩)
      (hrun : Hub.runScript b (fun _ _ => none) (waiterReaction key accepts asked fired e)
        s.detector.hub = some (hub, next)) :
      Step s (if fired then .quiet else .asked key e)
        { s with
          detector := s.detector.withHub hub
          telling := some ⟨e, told ++ [(id, next)], untold⟩ }
  | closes {s e told} (h : s.telling = some ⟨e, told, []⟩) : Step s .quiet (s.closed b told)

/-- The steps from one scene to another. -/
inductive Run (s : Scene κ υ) : List Happening → Scene κ υ → Prop where
  | nil : Run s [] s
  | snoc {trace s' h s''} (hrun : Run s trace s') (hstep : Step b s' h s'') :
      Run s (trace ++ [h]) s''

variable {b}

theorem Run.single {s s' : Scene κ υ} {h : Happening} (hstep : Step b s h s') : Run b s [h] s' :=
  .snoc .nil hstep

theorem Run.append {s s' s'' : Scene κ υ} {first later : List Happening} (hfirst : Run b s first s')
    (hlater : Run b s' later s'') : Run b s (first ++ later) s'' := by
  induction hlater with
  | nil => simpa using hfirst
  | snoc _ hstep ih =>
    rw [← List.append_assoc]
    exact ih.snoc hstep

end Scene

/-! ## §2 Dispatches -/

/-- An observer begins to wait and goes on. -/
def Reaction.waitFor (accepts : List Event → Event → Bool) (k : ObserverId → Nat → Reaction κ υ) :
    Reaction κ υ :=
  .act (fun c => { c with post := c.post.fresh.1 }) fun c =>
    .subscribe (.waiter (c.post.next - 1) accepts [] false) fun id =>
      if c.cancelled then .unsubscribe id fun _ => k id (c.post.next - 1)
      else k id (c.post.next - 1)

/-- An observer that uses the detector as others do: it subscribes, removes,
counts, stops, begins to wait, and acts on a world of its own. -/
inductive Orderly : Reaction κ υ → Prop where
  | done (next : κ) : Orderly (.done (.custom next))
  | subscribe (o : κ) {k : ObserverId → Reaction κ υ} (h : ∀ id, Orderly (k id)) :
      Orderly (.subscribe (.custom o) k)
  | unsubscribe (id : ObserverId) {k : Bool → Reaction κ υ} (h : ∀ removed, Orderly (k removed)) :
      Orderly (.unsubscribe id k)
  | count {k : Nat → Reaction κ υ} (h : ∀ n, Orderly (k n)) : Orderly (.count k)
  | stop {k : Reaction κ υ} (h : Orderly k) : Orderly (Reaction.stop k)
  | waitFor (accepts : List Event → Event → Bool) {k : ObserverId → Nat → Reaction κ υ}
      (h : ∀ id key, Orderly (k id key)) : Orderly (Reaction.waitFor accepts k)
  | act (f : υ → υ) {k : Control υ → Reaction κ υ} (h : ∀ c, Orderly (k c)) :
      Orderly (.act (fun c => { c with user := f c.user }) k)

namespace Scene

variable {b : Behaviour (Observer κ) (Control υ)}
  (nested : Event → Hub (Observer κ) (Control υ) → Option (Hub (Observer κ) (Control υ)))

theorem runScript_waitFor (d : Detector κ υ) (accepts : List Event → Event → Bool)
    (k : ObserverId → Nat → Reaction κ υ) :
    Hub.runScript b nested (Reaction.waitFor accepts k) d.hub =
      Hub.runScript b nested (k (d.waitFor b accepts).2.1 (d.waitFor b accepts).2.2)
        (d.waitFor b accepts).1.hub := by
  cases hstopped : d.hub.world.cancelled <;>
    simp [Reaction.waitFor, Hub.runScript, Detector.waitFor, Detector.isStopped, Post.fresh,
      Detector.subscribe, Detector.unsubscribe, Hub.subscribe, Registry.subscribe, hstopped]

theorem withHub_waitFor (d : Detector κ υ) (accepts : List Event → Event → Bool)
    (hub : Hub (Observer κ) (Control υ)) :
    (d.waitFor b accepts).1.withHub hub = d.withHub hub := by
  cases hstopped : d.hub.world.cancelled <;>
    simp [Detector.waitFor, Detector.isStopped, Detector.subscribe, Detector.unsubscribe,
      Hub.subscribe, Registry.subscribe, Detector.withHub, hstopped]

/-- What an orderly observer does are steps and comes to an end; it stays of
its kind. -/
theorem exists_run_script {script : Reaction κ υ} (horderly : Orderly script) (s : Scene κ υ) :
    ∃ hub next trace futures,
      Hub.runScript b nested script s.detector.hub = some (hub, .custom next) ∧
      Run b s trace ⟨s.detector.withHub hub, s.telling, futures⟩ ∧ ∀ e, .began e ∉ trace := by
  induction horderly generalizing s with
  | done next => exact ⟨s.detector.hub, next, [], s.futures, rfl, .nil, by simp⟩
  | subscribe o _ ih =>
    obtain ⟨hub, next, trace, futures, h, hrun, hbegan⟩ :=
      ih _ { s with detector := (s.detector.subscribe (.custom o)).1 }
    exact ⟨hub, next, .quiet :: trace, futures, h, (Run.single (.subscribe o)).append hrun,
      by simpa⟩
  | unsubscribe id _ ih =>
    obtain ⟨hub, next, trace, futures, h, hrun, hbegan⟩ :=
      ih _ { s with detector := (s.detector.unsubscribe b id).1 }
    exact ⟨hub, next, .removed id :: trace, futures, h, (Run.single (.unsubscribe id)).append hrun,
      by simpa⟩
  | count _ ih => exact ih _ s
  | stop _ ih =>
    obtain ⟨hub, next, trace, futures, h, hrun, hbegan⟩ := ih (s.stop b)
    exact ⟨hub, next, .stopped :: trace, futures, h, (Run.single .stop).append hrun, by simpa⟩
  | waitFor accepts _ ih =>
    obtain ⟨hub, next, trace, futures, h, hrun, hbegan⟩ := ih _ _ (s.waitFor b accepts).1
    rw [show (s.waitFor b accepts).1.detector.withHub hub = s.detector.withHub hub from
      withHub_waitFor s.detector accepts hub] at hrun
    refine ⟨hub, next, .quiet :: trace, futures, ?_, (Run.single (.waitFor accepts)).append hrun,
      by simpa⟩
    rw [runScript_waitFor]
    exact h
  | act f _ ih =>
    obtain ⟨hub, next, trace, futures, h, hrun, hbegan⟩ :=
      ih _ { s with detector := s.detector.onUser f }
    exact ⟨hub, next, .quiet :: trace, futures, h,
      (Run.single (.other (s.detector.onUser f) rfl rfl rfl)).append hrun, by simpa⟩

/-- What a waiter does when told. -/
theorem runScript_waiterReaction (key : Nat) (accepts : List Event → Event → Bool)
    (asked : List Event) (fired : Bool) (e : Event) (hub : Hub (Observer κ) (Control υ)) :
    Hub.runScript b nested (waiterReaction key accepts asked fired e) hub = some (
      if fired then (hub, .waiter key accepts asked true)
      else if accepts asked e then
        ({ hub with world := { hub.world with post := hub.world.post.deliver key e } },
          .waiter key accepts (asked ++ [e]) true)
      else (hub, .waiter key accepts (asked ++ [e]) false)) := by
  unfold waiterReaction
  cases fired with
  | true => rfl
  | false => cases accepts asked e <;> rfl

/-- What a batch of observers does are steps, with the tellings among them. -/
theorem exists_run_batch {custom : κ → Event → Reaction κ υ}
    (horderly : ∀ o e, Orderly (custom o e)) {e : Event} {s : Scene κ υ}
    {told untold : List (ObserverId × Observer κ)} (htelling : s.telling = some ⟨e, told, untold⟩) :
    ∃ hub done trace futures,
      Hub.runBatch (observerBehaviour custom) nested e untold s.detector.hub = some (hub, done) ∧
      Run (observerBehaviour custom) s trace
        ⟨s.detector.withHub hub, some ⟨e, told ++ done, []⟩, futures⟩ ∧
      (∀ e, .began e ∉ trace) ∧ ((κ → False) → futures = s.futures ∧ ∀ h ∈ trace, h.IsCalm) := by
  induction untold generalizing s told with
  | nil =>
    refine ⟨s.detector.hub, [], [], s.futures, rfl, ?_, by simp, by simp⟩
    rw [List.append_nil, ← htelling]
    exact .nil
  | cons first rest ih =>
    obtain ⟨id, o⟩ := first
    cases o with
    | waiter key accepts asked fired =>
      obtain ⟨⟨hub₁, next⟩, hfirst⟩ : ∃ out, Hub.runScript (observerBehaviour custom) nested
          (waiterReaction key accepts asked fired e) s.detector.hub = some out :=
        ⟨_, runScript_waiterReaction _ key accepts asked fired e s.detector.hub⟩
      have halone : Hub.runScript (observerBehaviour custom) (fun _ _ => none)
          (waiterReaction key accepts asked fired e) s.detector.hub = some (hub₁, next) := by
        rw [runScript_waiterReaction, ← hfirst, runScript_waiterReaction]
      have hstep := Step.tellsWaiter htelling halone
      obtain ⟨hub, done, trace, futures, hrest, hrun, hbegan, hcalm⟩ :=
        ih (s := ⟨s.detector.withHub hub₁, some ⟨e, told ++ [(id, next)], rest⟩, s.futures⟩) rfl
      refine ⟨hub, (id, next) :: done, _ :: trace, futures, ?_,
        by simpa using (Run.single hstep).append hrun, ?_, ?_⟩
      · exact Option.bind_eq_some_iff.mpr
          ⟨_, hfirst, Option.bind_eq_some_iff.mpr ⟨_, hrest, rfl⟩⟩
      · cases fired <;> simpa using hbegan
      · intro hempty
        obtain ⟨hfutures, hall⟩ := hcalm hempty
        refine ⟨hfutures, List.forall_mem_cons.mpr ⟨?_, hall⟩⟩
        cases fired
        · exact .inr ⟨key, e, rfl⟩
        · exact .inl rfl
    | custom o =>
      obtain ⟨hub₁, next, trace, futures, hfirst, hrun, hbegan⟩ :=
        exists_run_script (b := observerBehaviour custom) nested (horderly o e) s
      have hstep := Step.tellsCustom (b := observerBehaviour custom)
        (s := ⟨s.detector.withHub hub₁, s.telling, futures⟩) next htelling
      obtain ⟨hub, done, trace', futures', hrest, hrun', hbegan', -⟩ := ih
        (s := ⟨s.detector.withHub hub₁, some ⟨e, told ++ [(id, .custom next)], rest⟩, futures⟩) rfl
      refine ⟨hub, (id, .custom next) :: done, trace ++ [.quiet] ++ trace', futures', ?_, ?_,
        by simp [hbegan, hbegan'], fun hempty => (hempty o).elim⟩
      · exact Option.bind_eq_some_iff.mpr
          ⟨_, hfirst, Option.bind_eq_some_iff.mpr ⟨_, hrest, rfl⟩⟩
      · simpa using (hrun.snoc hstep).append hrun'

/-- **A dispatch of the detector is a run** and comes to an end, whatever its
observers do, as long as they use the detector as others do. -/
theorem exists_run_dispatch {custom : κ → Event → Reaction κ υ}
    (horderly : ∀ o e, Orderly (custom o e)) {s : Scene κ υ} (htelling : s.telling = none)
    (depth : Nat) (e : Event) :
    ∃ hub trace futures,
      Hub.dispatch (observerBehaviour custom) (depth + 1) e s.detector.hub = some hub ∧
      Run (observerBehaviour custom) s (.began e :: trace)
        ⟨s.detector.withHub hub, none, futures⟩ ∧
      (∀ e, .began e ∉ trace) ∧ ((κ → False) → futures = s.futures ∧ ∀ h ∈ trace, h.IsCalm) := by
  have hopen := Run.single (Step.opens (b := observerBehaviour custom) e htelling)
  obtain ⟨hub, done, trace, futures, hbatch, hrun, hbegan, hcalm⟩ := exists_run_batch
    (Hub.dispatch (observerBehaviour custom) depth) horderly (s := s.opened e) rfl
  have hclose := hrun.snoc (.closes rfl)
  refine ⟨hub.mergeBatch _ done, trace ++ [.quiet], futures, ?_, hopen.append hclose,
    by simp [hbegan], ?_⟩
  · exact Option.bind_eq_some_iff.mpr ⟨_, hbatch, rfl⟩
  · intro hempty
    obtain ⟨hfutures, hall⟩ := hcalm hempty
    refine ⟨hfutures, fun h hin => ?_⟩
    rcases List.mem_append.mp hin with hin | hin
    · exact hall h hin
    · exact .inl (List.mem_singleton.mp hin)

end Scene

end Runwatch.Telemetry
