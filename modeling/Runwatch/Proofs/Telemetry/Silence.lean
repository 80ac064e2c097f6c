/-
Runwatch.Proofs.Telemetry.Silence — a stopped detector tells nobody any more.

A detector is used by its read loop, by its observers while they are told,
and by other tasks between two steps of the loop. Whoever of them stops it,
and wherever: no dispatch begins behind that. One that is running goes on
with the observers that it has begun with, and when it ends they are gone.

  §1 Telling — who is told of what (`told`), read off the entries.
  §2 Callers — observers that use the detector as others do (`Tame`), and
               what is written down of them and of a dispatch to them.
  §3 Courses — all that can happen to a detector (`Course`), and what every
               step keeps (`Course.Kept`).
  §4 Stops   — what a stop leaves (`Course.Silences`, `stop_is_final`).
-/
import Runwatch.Proofs.Telemetry.Following
import Runwatch.Proofs.Telemetry.Membership
import Runwatch.Proofs.Telemetry.Sound

namespace Runwatch.Telemetry

variable {κ υ : Type}

/-! ## §1 Telling -/

namespace Entry

/-- The events of the dispatches that are running behind an entry, innermost
first. -/
def running (before : List Event) : Entry → List Event
  | .opened e => e :: before
  | .closed => before.tail
  | _ => before

/-- Who is told of what. -/
def tells (before : List Event) : Entry → List (Event × ObserverId)
  | .called id => before.head?.toList.map (·, id)
  | _ => []

/-- It is not written down by a dispatch. -/
def IsAside : Entry → Prop
  | .opened _ => False
  | .called _ => False
  | .returned _ => False
  | .closed => False
  | _ => True

/-- It neither begins a dispatch nor ends one. -/
def IsWithin : Entry → Prop
  | .opened _ => False
  | .closed => False
  | _ => True

theorem IsWithin.running {entry : Entry} (h : entry.IsWithin) (before : List Event) :
    entry.running before = before := by
  cases entry with
  | opened e | closed => exact h.elim
  | subscribed _ | unsubscribed _ _ | cleared | counted _ | called _ | returned _ => rfl

theorem IsAside.isWithin {entry : Entry} (h : entry.IsAside) : entry.IsWithin := by
  cases entry with
  | opened e | closed => exact h.elim
  | subscribed _ | unsubscribed _ _ | cleared | counted _ | called _ | returned _ => trivial

theorem IsAside.tells {entry : Entry} (h : entry.IsAside) (before : List Event) :
    entry.tells before = [] := by
  cases entry with
  | called _ => exact h.elim
  | subscribed _ | unsubscribed _ _ | cleared | counted _ | opened _ | returned _ | closed => rfl

end Entry

/-- The events of the dispatches that are running behind entries. -/
def running (before : List Event) (entries : List Entry) : List Event :=
  entries.foldl Entry.running before

/-- Who is told of what, in order. -/
def told : List Event → List Entry → List (Event × ObserverId)
  | _, [] => []
  | before, entry :: rest => entry.tells before ++ told (entry.running before) rest

theorem told_append (before : List Event) (xs ys : List Entry) :
    told before (xs ++ ys) = told before xs ++ told (running before xs) ys := by
  induction xs generalizing before with
  | nil => rfl
  | cons entry rest ih => simp only [List.cons_append, told, ih, List.append_assoc]; rfl

theorem running_append (before : List Event) (xs ys : List Entry) :
    running before (xs ++ ys) = running (running before xs) ys := List.foldl_append

theorem running_of_isWithin {entries : List Entry} (h : ∀ entry ∈ entries, entry.IsWithin)
    (before : List Event) : running before entries = before := by
  induction entries generalizing before with
  | nil => rfl
  | cons entry rest ih =>
    obtain ⟨hfirst, hrest⟩ := List.forall_mem_cons.mp h
    exact (congrArg (running · rest) (hfirst.running before)).trans (ih hrest _)

theorem told_of_isAside {entries : List Entry} (h : ∀ entry ∈ entries, entry.IsAside)
    (before : List Event) : told before entries = [] := by
  induction entries generalizing before with
  | nil => rfl
  | cons entry rest ih =>
    obtain ⟨hfirst, hrest⟩ := List.forall_mem_cons.mp h
    rw [told, hfirst.tells, ih hrest, List.append_nil]

/-! ## §2 Callers -/

/-- The detector is stopped and watches nothing. -/
def Control.IsShut (c : Control υ) : Prop := c.cancelled = true ∧ c.watching = false

/-- A detector that is shut stays so, and one that is stopped on the way is
shut behind it. -/
def Heeds (w : Control υ) (entries : List Entry) (w' : Control υ) : Prop :=
  w.IsShut ∨ .cleared ∈ entries → w'.IsShut

theorem Heeds.refl (w : Control υ) : Heeds w [] w := fun h => h.resolve_right nofun

theorem Heeds.trans {w w' w'' : Control υ} {xs ys : List Entry} (h : Heeds w xs w')
    (h' : Heeds w' ys w'') : Heeds w (xs ++ ys) w'' := by
  rintro (hshut | hstop)
  · exact h' (.inl (h (.inl hshut)))
  · rcases List.mem_append.mp hstop with hstop | hstop
    · exact h' (.inl (h (.inr hstop)))
    · exact h' (.inr hstop)

/-- An entry that is no stop, in a world that stays as far as that goes. -/
theorem Heeds.cons {w w₁ w' : Control υ} {entry : Entry} {rest : List Entry}
    (hentry : entry ≠ .cleared) (hsame : w.IsShut → w₁.IsShut) (h : Heeds w₁ rest w') :
    Heeds w (entry :: rest) w' := by
  rintro (hshut | hstop)
  · exact h (.inl (hsame hshut))
  · exact h (.inr ((List.mem_cons.mp hstop).resolve_left hentry.symm))

/-- An observer or a task that uses the detector as others do: it subscribes,
removes and counts observers, stops the detector, and acts on the mailboxes
and on a world of its own. It begins no dispatch, and whether the detector
is stopped or watching it changes by a stop alone; so only a stop clears the
registry. -/
inductive Tame : Reaction κ υ → Prop where
  | done (next : Observer κ) : Tame (.done next)
  | subscribe (o : Observer κ) {k : ObserverId → Reaction κ υ} (h : ∀ id, Tame (k id)) :
      Tame (.subscribe o k)
  | unsubscribe (id : ObserverId) {k : Bool → Reaction κ υ} (h : ∀ removed, Tame (k removed)) :
      Tame (.unsubscribe id k)
  | count {k : Nat → Reaction κ υ} (h : ∀ n, Tame (k n)) : Tame (.count k)
  | stop {k : Reaction κ υ} (h : Tame k) : Tame (Reaction.stop k)
  | act (f : Control υ → Control υ)
      (hf : ∀ c, (f c).cancelled = c.cancelled ∧ (f c).watching = c.watching)
      {k : Control υ → Reaction κ υ} (h : ∀ c, Tame (k c)) : Tame (.act f k)

theorem tame_waiterReaction (key : Nat) (accepts : List Event → Event → Bool)
    (asked : List Event) (fired : Bool) (e : Event) :
    Tame (waiterReaction key accepts asked fired e : Reaction κ υ) := by
  unfold waiterReaction
  split
  · exact .done _
  · split
    · exact .act (fun c => { c with post := c.post.deliver key e }) (fun _ => ⟨rfl, rfl⟩)
        fun _ => .done _
    · exact .done _

section

variable {custom : κ → Event → Reaction κ υ}

theorem tame_react (htame : ∀ o e, Tame (custom o e)) (o : Observer κ) (e : Event) :
    Tame ((observerBehaviour custom).react o e) := by
  cases o with
  | waiter key accepts asked fired => exact tame_waiterReaction key accepts asked fired e
  | custom o => exact htame o e

/-- Letting observers go stops nothing. -/
theorem isShut_releaseAll (gone : List (ObserverId × Observer κ)) {c : Control υ} (h : c.IsShut) :
    (Hub.releaseAll (observerBehaviour custom) gone c).IsShut :=
  ⟨(releaseAll_frame custom gone c).1.trans h.1, (watching_releaseAll custom gone c).trans h.2⟩

theorem isShut_unsubscribe (hub : Hub (Observer κ) (Control υ)) (id : ObserverId)
    (h : hub.world.IsShut) : (hub.unsubscribe (observerBehaviour custom) id).1.world.IsShut := by
  cases hfind : hub.registry.idle.find? (·.1 == id) with
  | some gone =>
    simp only [Hub.unsubscribe, hfind]
    exact isShut_releaseAll _ h
  | none =>
    simp only [Hub.unsubscribe, hfind]
    split <;> exact h

theorem isShut_clear (hub : Hub (Observer κ) (Control υ)) (h : hub.world.IsShut) :
    (hub.clear (observerBehaviour custom)).world.IsShut := isShut_releaseAll _ h

variable {nested : Event → Hub (Observer κ) (Control υ) →
  Chronicle (Observer κ) (Hub (Observer κ) (Control υ))}

variable (custom nested) in
/-- What a tame observer does comes to an end, and nothing of it is the work
of a dispatch. -/
theorem Tame.chronicle {script : Reaction κ υ} (htame : Tame script)
    (hub : Hub (Observer κ) (Control υ)) :
    let c := Chronicle.ofScript (observerBehaviour custom) nested script hub
    ∃ hub' next, c.result = some (hub', next) ∧ (∀ entry ∈ c.entries, entry.IsAside) ∧
      Heeds hub.world c.entries hub'.world := by
  induction htame generalizing hub with
  | done next => exact ⟨hub, next, rfl, nofun, .refl _⟩
  | subscribe o _ ih =>
    obtain ⟨hub', next, hresult, haside, hheeds⟩ := ih _ (hub.subscribe o).1
    exact ⟨hub', next, hresult, List.forall_mem_cons.mpr ⟨trivial, haside⟩,
      hheeds.cons nofun id⟩
  | unsubscribe id _ ih =>
    obtain ⟨hub', next, hresult, haside, hheeds⟩ :=
      ih _ (hub.unsubscribe (observerBehaviour custom) id).1
    exact ⟨hub', next, hresult, List.forall_mem_cons.mpr ⟨trivial, haside⟩,
      hheeds.cons nofun (isShut_unsubscribe hub id)⟩
  | count _ ih =>
    obtain ⟨hub', next, hresult, haside, hheeds⟩ := ih _ hub
    exact ⟨hub', next, hresult, List.forall_mem_cons.mpr ⟨trivial, haside⟩,
      hheeds.cons nofun id⟩
  | stop _ ih =>
    obtain ⟨hub', next, hresult, haside, hheeds⟩ :=
      ih (Hub.clear (observerBehaviour custom) { hub with world := hub.world.cancel })
    refine ⟨hub', next, hresult, List.forall_mem_cons.mpr ⟨trivial, haside⟩, fun _ => ?_⟩
    exact hheeds (.inl (isShut_clear _ ⟨rfl, rfl⟩))
  | act f hf _ ih =>
    obtain ⟨hub', next, hresult, haside, hheeds⟩ :=
      ih (f hub.world) { hub with world := f hub.world }
    refine ⟨hub', next, hresult, haside, fun h => hheeds (h.imp_left fun hshut => ?_)⟩
    exact ⟨(hf hub.world).1.trans hshut.1, (hf hub.world).2.trans hshut.2⟩

variable (nested) in
/-- A batch of observers is told of the event one after the other. -/
theorem chronicle_batch (htame : ∀ o e, Tame (custom o e)) (e : Event)
    (batch : List (ObserverId × Observer κ)) (hub : Hub (Observer κ) (Control υ)) :
    let c := Chronicle.ofBatch (observerBehaviour custom) nested e batch hub
    ∃ hub' done, c.result = some (hub', done) ∧ (∀ entry ∈ c.entries, entry.IsWithin) ∧
      told [e] c.entries = (idsOf batch).map (e, ·) ∧ Heeds hub.world c.entries hub'.world := by
  induction batch generalizing hub with
  | nil => exact ⟨hub, [], rfl, nofun, rfl, .refl _⟩
  | cons o rest ih =>
    obtain ⟨id, o⟩ := o
    obtain ⟨hub₁, next, hfirst, haside, hheeds₁⟩ :=
      (tame_react htame o e).chronicle custom nested hub
    obtain ⟨hub', done, hrest, hwithin, htold, hheeds⟩ := ih hub₁
    intro c
    have hentries : c.entries = .called id ::
        ((Chronicle.ofScript (observerBehaviour custom) nested
            ((observerBehaviour custom).react o e) hub).entries ++ .returned id ::
          (Chronicle.ofBatch (observerBehaviour custom) nested e rest hub₁).entries) := by
      simp [c, Chronicle.ofBatch, Chronicle.entries_bind hfirst, Chronicle.entries_bind hrest]
    have hinside := running_of_isWithin (fun entry h => (haside entry h).isWithin) [e]
    rw [hentries]
    refine ⟨hub', (id, next) :: done, ?result, ?within, ?told, ?heeds⟩
    case result => simp [c, Chronicle.ofBatch, hfirst, hrest]
    case within =>
      refine List.forall_mem_cons.mpr ⟨trivial, List.forall_mem_append.mpr ⟨?_, ?_⟩⟩
      · exact fun entry h => (haside entry h).isWithin
      · exact List.forall_mem_cons.mpr ⟨trivial, hwithin⟩
    case told =>
      rw [told, told_append, told_of_isAside haside, List.nil_append, idsOf_cons, List.map_cons,
        ← htold]
      change (e, id) :: told (running [e] _) (.returned id :: _) = _
      rw [hinside]
      rfl
    case heeds =>
      exact .cons (by simp) (fun h => h) (hheeds₁.trans (.cons (by simp) (fun h => h) hheeds))

/-- A dispatch comes to an end; all that are idle when it begins are told of
the event, once and in order. -/
theorem chronicle_dispatch (htame : ∀ o e, Tame (custom o e)) (depth : Nat) (e : Event)
    (hub : Hub (Observer κ) (Control υ)) :
    let c := Chronicle.ofDispatch (observerBehaviour custom) (depth + 1) e hub
    ∃ hub' body, c.result = some hub' ∧ c.entries = .opened e :: (body ++ [.closed]) ∧
      (∀ entry ∈ body, entry.IsWithin) ∧
      told [e] body = (idsOf hub.registry.idle).map (e, ·) ∧
      Heeds hub.world c.entries hub'.world := by
  obtain ⟨hub₁, done, hresult, hwithin, htold, hheeds⟩ := chronicle_batch
    (Chronicle.ofDispatch (observerBehaviour custom) depth) htame e hub.takeBatch.2
    hub.takeBatch.1
  intro c
  have hentries : c.entries = .opened e :: ((Chronicle.ofBatch (observerBehaviour custom)
      (Chronicle.ofDispatch (observerBehaviour custom) depth) e hub.takeBatch.2
      hub.takeBatch.1).entries ++ [.closed]) := by
    simp [c, Chronicle.ofDispatch, Chronicle.entries_bind hresult]
  refine ⟨hub₁.mergeBatch (observerBehaviour custom) done, _, ?_, hentries, hwithin, htold, ?_⟩
  · simp [c, Chronicle.ofDispatch, hresult]
  · rw [hentries]
    refine .cons (by simp) id (hheeds.trans (.cons (by simp) ?_ (.refl _)))
    exact isShut_releaseAll _

end

/-! ## §3 Courses -/

/-- A stopped detector does not start. -/
theorem Detector.start_of_isStopped {d : Detector κ υ} (h : d.isStopped = true)
    (watch : Except WatchFault Unit) : d.start watch = (d, .error .stopped) := if_pos h

/-- Starting touches no observer. -/
theorem Detector.registry_start (d : Detector κ υ) (watch : Except WatchFault Unit) :
    (d.start watch).1.hub.registry = d.hub.registry := by
  unfold Detector.start
  split
  · rfl
  · split
    · rfl
    · cases watch <;> rfl

/-- A change of the log touches nothing that observers reach. -/
theorem Detector.hub_signal (d : Detector κ υ) : d.signal.hub = d.hub := by
  unfold Detector.signal
  split <;> rfl

/-- The steps of a detector, each with what is written down of it: its loop
takes a step, whatever it finds where the log should be; a change reaches
the watch; somebody starts it; another task uses it as observers do. -/
inductive Course.Step (b : Behaviour (Observer κ) (Control υ)) (d : Detector κ υ) :
    List (Moment (Observer κ)) → Detector κ υ → Prop where
  | loop (depth : Nat) (sight : Sight) {d' : Detector κ υ} (h : d.advance b depth sight = some d') :
      Step b d (d.dispatching.flatMap fun e => (Chronicle.ofDispatch b depth e d.hub).moments) d'
  | signal : Step b d [] d.signal
  | start (watch : Except WatchFault Unit) : Step b d [] (d.start watch).1
  | task {script : Reaction κ υ} (htame : Tame script) {hub : Hub (Observer κ) (Control υ)}
      {next : Observer κ} (h : Hub.runScript b (fun _ _ => none) script d.hub = some (hub, next)) :
      Step b d (Chronicle.ofScript b (fun _ _ => ⟨[], none⟩) script d.hub).moments (d.withHub hub)

/-- All that can happen to a detector, with what is written down of it. -/
inductive Course (b : Behaviour (Observer κ) (Control υ)) (path : String) (user : υ) :
    Detector κ υ → List (Moment (Observer κ)) → Prop where
  | new : Course b path user (.ofPath path user) []
  | step {d d' : Detector κ υ} {ms added : List (Moment (Observer κ))}
      (h : Course b path user d ms) (hstep : Course.Step b d added d') :
      Course b path user d' (ms ++ added)

namespace Course

variable {b : Behaviour (Observer κ) (Control υ)} {d d' : Detector κ υ}
  {ms added : List (Moment (Observer κ))}

/-- A task that subscribes an observer. -/
theorem Step.subscribe (o : Observer κ) :
    Step b d [⟨.subscribed (d.subscribe o).2, (d.subscribe o).1.hub.registry⟩]
      (d.subscribe o).1 :=
  .task (.subscribe o fun _ => .done o) rfl

/-- A task that stops the detector; a stop is told by the registry that it
clears. -/
theorem Step.stop : Step b d [⟨.cleared, (d.stop b).hub.registry⟩] (d.stop b) :=
  .task (.stop (.done (.waiter 0 (fun _ _ => false) [] false))) rfl

/-- Whatever is written down follows the ledger, and no dispatch is running
behind a step. -/
theorem Step.follows (hstep : Step b d added d') {l : Ledger} (ha : Agrees l d.hub.registry)
    (hrest : l.rounds = []) :
    Follows l added ∧ Agrees (l.notes (added.map (·.entry))) d'.hub.registry ∧
      (l.notes (added.map (·.entry))).rounds = [] := by
  cases hstep with
  | loop depth _ h =>
    rcases Detector.advance_cases h with ⟨hnone, hhub⟩ | ⟨e, hone, -, hdispatch⟩
    · rw [hnone, hhub]
      exact ⟨trivial, ha, hrest⟩
    · have hkeeps := Chronicle.keeps_ofDispatch (b := b) depth e d.hub l ha
      rw [← Chronicle.result_ofDispatch] at hdispatch
      obtain ⟨hagrees, hrounds⟩ := hkeeps.ends _ hdispatch
      rw [hone, List.flatMap_singleton]
      exact ⟨hkeeps.follows, hagrees, hrounds.trans hrest⟩
  | signal => exact ⟨trivial, d.hub_signal ▸ ha, hrest⟩
  | start watch => exact ⟨trivial, d.registry_start watch ▸ ha, hrest⟩
  | @task script _ hub next h =>
    have hkeeps : (Chronicle.ofScript b (fun _ _ => ⟨[], none⟩) script d.hub).Keeps l
        fun out => Chronicle.Resumes l.rounds out.1 := by
      refine Chronicle.keeps_ofScript ?_ script ha
      exact fun _ _ _ _ => ⟨trivial, nofun⟩
    have hresult := Chronicle.result_ofScript b (fun _ _ => ⟨[], none⟩) script d.hub
    obtain ⟨hagrees, hrounds⟩ := hkeeps.ends _ (hresult.trans h)
    exact ⟨hkeeps.follows, hagrees, hrounds.trans hrest⟩

/-- What a step writes down: either nothing that is the work of a dispatch,
or one whole dispatch, of a detector that is not stopped, in which all that
are idle are told of the event. -/
inductive Extends (d : Detector κ υ) : List Entry → Prop where
  | aside {entries : List Entry} (h : ∀ entry ∈ entries, entry.IsAside) : Extends d entries
  | dispatch (e : Event) {body : List Entry} (hlive : d.isStopped = false)
      (hwithin : ∀ entry ∈ body, entry.IsWithin)
      (htold : told [e] body = (idsOf d.hub.registry.idle).map (e, ·)) :
      Extends d (.opened e :: (body ++ [.closed]))

section

variable {custom : κ → Event → Reaction κ υ}

theorem Step.extends (htame : ∀ o e, Tame (custom o e))
    (hstep : Step (observerBehaviour custom) d added d') :
    Extends d (added.map (·.entry)) ∧
      Heeds d.hub.world (added.map (·.entry)) d'.hub.world := by
  cases hstep with
  | loop depth _ h =>
    rcases Detector.advance_cases h with ⟨hnone, hhub⟩ | ⟨e, hone, hlive, hdispatch⟩
    · rw [hnone, hhub]
      exact ⟨.aside nofun, .refl _⟩
    · rw [hone, List.flatMap_singleton]
      cases depth with
      | zero => cases hdispatch
      | succ depth =>
        obtain ⟨hub, body, hresult, hentries, hwithin, htold, hheeds⟩ :=
          chronicle_dispatch htame depth e d.hub
        rw [Chronicle.result_ofDispatch, hdispatch] at hresult
        obtain rfl := Option.some.inj hresult
        refine ⟨?_, hheeds⟩
        change Extends d (Chronicle.entries _)
        rw [hentries]
        exact .dispatch e hlive hwithin htold
  | signal => exact ⟨.aside nofun, d.hub_signal ▸ .refl _⟩
  | start watch =>
    refine ⟨.aside nofun, fun hshut => ?_⟩
    have hshut := hshut.resolve_right nofun
    rwa [Detector.start_of_isStopped hshut.1]
  | @task script hscript hub next h =>
    obtain ⟨hub', next', hresult, haside, hheeds⟩ := hscript.chronicle custom
      (fun _ _ => ⟨[], none⟩) d.hub
    have hsame := Chronicle.result_ofScript (observerBehaviour custom) (fun _ _ => ⟨[], none⟩)
      script d.hub
    rw [hresult] at hsame
    obtain ⟨rfl, -⟩ := Prod.mk.inj (Option.some.inj (hsame.trans h))
    exact ⟨.aside haside, hheeds⟩

end

/-- Where the first of two lists ends in a list that is cut at an element. -/
theorem split_append {α : Type} {xs ys before after : List α} {x : α}
    (h : xs ++ ys = before ++ x :: after) :
    (∃ rest, xs = before ++ x :: rest ∧ after = rest ++ ys) ∨
      ∃ rest, before = xs ++ rest ∧ ys = rest ++ x :: after := by
  rcases List.append_eq_append_iff.mp h with ⟨rest, hbefore, hys⟩ | ⟨rest, hxs, hrest⟩
  · exact .inr ⟨rest, hbefore, hys⟩
  · rcases List.cons_eq_append_iff.mp hrest with ⟨rfl, hys⟩ | ⟨rest', rfl, hafter⟩
    · exact .inr ⟨[], by simpa using hxs.symm, hys⟩
    · exact .inl ⟨rest', hxs, hafter⟩

/-- What every step keeps: the registry is as the entries say, no dispatch
is running between two steps, one that began has ended, and a detector that
was stopped is shut. -/
structure Kept (d : Detector κ υ) (ms : List (Moment (Observer κ))) : Prop where
  follows : Follows Ledger.empty ms
  agrees : Agrees (Ledger.ofEntries (ms.map (·.entry))) d.hub.registry
  atRest : (Ledger.ofEntries (ms.map (·.entry))).rounds = []
  shut : .cleared ∈ ms.map (·.entry) → d.hub.world.IsShut
  ended : running [] (ms.map (·.entry)) = []
  closed : ∀ pre e mid, ms.map (·.entry) = pre ++ .opened e :: mid → .closed ∈ mid

theorem Extends.running {entries : List Entry} (h : Extends d entries) :
    Telemetry.running [] entries = [] := by
  cases h with
  | aside h => exact running_of_isWithin (fun entry hin => (h entry hin).isWithin) []
  | dispatch e _ hwithin _ =>
    change Telemetry.running [e] _ = []
    rw [running_append, running_of_isWithin hwithin]
    rfl

/-- A dispatch that a step writes down has ended. -/
theorem Extends.closed {entries pre mid : List Entry} {e : Event} (h : Extends d entries)
    (heq : entries = pre ++ .opened e :: mid) : .closed ∈ mid := by
  cases h with
  | aside h => exact (h (.opened e) (heq ▸ List.mem_append_right _ List.mem_cons_self)).elim
  | @dispatch _ body _ hwithin _ =>
    rcases List.cons_eq_append_iff.mp heq with ⟨-, hrest⟩ | ⟨rest, -, hrest⟩
    · rw [(List.cons.inj hrest).2]
      exact List.mem_append_right _ List.mem_cons_self
    · rcases split_append hrest with ⟨later, hbody, -⟩ | ⟨later, -, hlast⟩
      · exact (hwithin (.opened e) (hbody ▸ List.mem_append_right _ List.mem_cons_self)).elim
      · rcases List.cons_eq_append_iff.mp hlast with ⟨-, hopened⟩ | ⟨_, -, hnil⟩
        · cases hopened
        · exact absurd hnil.symm (by simp)

variable {custom : κ → Event → Reaction κ υ} {path : String} {user : υ}

theorem kept (htame : ∀ o e, Tame (custom o e))
    (h : Course (observerBehaviour custom) path user d ms) : Kept d ms := by
  induction h with
  | new => exact ⟨trivial, .start, rfl, nofun, rfl, by simp⟩
  | @step d d' ms added _ hstep ih =>
    obtain ⟨hextends, hheeds⟩ := hstep.extends htame
    obtain ⟨hfollows, hagrees, hrest⟩ := hstep.follows ih.agrees ih.atRest
    have hentries : (ms ++ added).map (·.entry) = ms.map (·.entry) ++ added.map (·.entry) :=
      List.map_append
    have hledger : Ledger.ofEntries ((ms ++ added).map (·.entry)) =
        (Ledger.ofEntries (ms.map (·.entry))).notes (added.map (·.entry)) := by
      rw [hentries, Ledger.ofEntries, Ledger.notes_append]
      rfl
    exact {
      follows := Follows.append.mpr ⟨ih.follows, hfollows⟩
      agrees := hledger ▸ hagrees
      atRest := hledger ▸ hrest
      shut := by
        rw [hentries, List.mem_append]
        exact fun hstop => hheeds (hstop.imp_left ih.shut)
      ended := by rw [hentries, running_append, ih.ended, hextends.running]
      closed := by
        intro pre e mid heq
        rw [hentries] at heq
        rcases split_append heq with ⟨rest, hold, rfl⟩ | ⟨rest, -, hnew⟩
        · exact List.mem_append_left _ (ih.closed pre e rest hold)
        · exact hextends.closed hnew }

/-! ## §4 Stops -/

/-- A cut of the entries at a stop is the last word: no dispatch begins
behind it. If one is running there, all that were registered when it began
are told of its event, each of them once, and nobody is told of anything
else; if none is, nobody is told of anything. -/
structure IsLast (before after : List Entry) : Prop where
  begins : ∀ e, .opened e ∉ after
  inside : ∀ pre e mid, before = pre ++ .opened e :: mid → .closed ∉ mid →
    told [] (before ++ .cleared :: after) = told [] pre ++ (liveAfter pre).map (e, ·)
  outside : (∀ pre e mid, before = pre ++ .opened e :: mid → .closed ∈ mid) →
    told [] (before ++ .cleared :: after) = told [] before

/-- It stays the last word while nothing is the work of a dispatch. -/
theorem IsLast.append {before after added : List Entry} (h : IsLast before after)
    (haside : ∀ entry ∈ added, entry.IsAside) : IsLast before (after ++ added) := by
  have htold : told [] (before ++ .cleared :: (after ++ added)) =
      told [] (before ++ .cleared :: after) := by
    rw [← List.cons_append, ← List.append_assoc, told_append, told_of_isAside haside,
      List.append_nil]
  exact {
    begins := fun e hin => (List.mem_append.mp hin).elim (h.begins e) (haside _)
    inside := fun pre e mid hbefore hopen => htold.trans (h.inside pre e mid hbefore hopen)
    outside := fun hclosed => htold.trans (h.outside hclosed) }

/-- A stop of another task. -/
theorem Kept.isLast_aside (h : Kept d ms) {rest after : List Entry}
    (haside : ∀ entry ∈ rest ++ .cleared :: after, entry.IsAside) :
    IsLast (ms.map (·.entry) ++ rest) after := by
  obtain ⟨hrest, hafter⟩ := List.forall_mem_append.mp haside
  refine ⟨fun e hin => hafter (.opened e) (List.mem_cons_of_mem _ hin), ?inside, fun _ => ?_⟩
  case inside =>
    intro pre e mid hbefore hopen
    rcases split_append hbefore with ⟨mid', hold, rfl⟩ | ⟨mid', -, hnew⟩
    · exact absurd (List.mem_append_left _ (h.closed pre e mid' hold)) hopen
    · exact (hrest (.opened e) (hnew ▸ List.mem_append_right _ List.mem_cons_self)).elim
  · rw [told_append, told_of_isAside hafter, List.append_nil]

/-- A stop of an observer that a dispatch is telling. -/
theorem Kept.isLast_dispatch (h : Kept d ms) {e : Event} {body rest after : List Entry}
    (hwithin : ∀ entry ∈ body, entry.IsWithin)
    (htold : told [e] body = (idsOf d.hub.registry.idle).map (e, ·))
    (hbody : body = rest ++ .cleared :: after) :
    IsLast (ms.map (·.entry) ++ .opened e :: rest) (after ++ [.closed]) := by
  have hparts : ∀ entry ∈ rest ++ .cleared :: after, entry.IsWithin := hbody ▸ hwithin
  obtain ⟨hrest, hafter⟩ := List.forall_mem_append.mp hparts
  refine ⟨?begins, ?inside, ?outside⟩
  case begins =>
    intro e' hin
    rcases List.mem_append.mp hin with hin | hin
    · exact hafter (.opened e') (List.mem_cons_of_mem _ hin)
    · exact nomatch List.mem_singleton.mp hin
  case outside =>
    intro hclosed
    exact (hrest .closed (hclosed _ e rest rfl)).elim
  case inside =>
    intro pre e' mid hbefore hopen
    -- The dispatch that is still open is this one.
    obtain ⟨rfl, rfl⟩ : pre = ms.map (·.entry) ∧ e' = e := by
      rcases split_append hbefore with ⟨mid', hold, rfl⟩ | ⟨mid', hpre, hnew⟩
      · exact absurd (List.mem_append_left _ (h.closed pre e' mid' hold)) hopen
      · rcases List.cons_eq_append_iff.mp hnew with ⟨rfl, hfirst⟩ | ⟨mid'', -, hlater⟩
        · exact ⟨by simpa using hpre, Entry.opened.inj (List.cons.inj hfirst).1⟩
        · exact (hrest (.opened e') (hlater ▸ List.mem_append_right _ List.mem_cons_self)).elim
    have hall : ms.map (·.entry) ++ .opened e' :: rest ++ .cleared :: (after ++ [.closed]) =
        ms.map (·.entry) ++ .opened e' :: (body ++ [.closed]) := by
      simp [hbody]
    have hlast : told [] (.opened e' :: (body ++ [.closed])) = told [e'] body := by
      change told [e'] (body ++ [.closed]) = _
      rw [told_append]
      exact List.append_nil _
    have hlive : idsOf d.hub.registry.idle = liveAfter (ms.map (·.entry)) :=
      (h.agrees.stores h.atRest).idle
    rw [hall, told_append, h.ended, hlast, htold, hlive]

/-- Wherever a detector is stopped, that is the last word. -/
theorem isLast (htame : ∀ o e, Tame (custom o e))
    (h : Course (observerBehaviour custom) path user d ms) {before after : List Entry}
    (hstop : ms.map (·.entry) = before ++ .cleared :: after) : IsLast before after := by
  induction h generalizing before after with
  | new => simp at hstop
  | @step d d' ms added hcourse hstep ih =>
    have hkept := kept htame hcourse
    have hextends := (hstep.extends htame).1
    rw [List.map_append] at hstop
    rcases split_append hstop with ⟨rest, hold, rfl⟩ | ⟨rest, rfl, hnew⟩
    · refine (ih hold).append ?_
      have hstopped := (hkept.shut (hold ▸ List.mem_append_right _ List.mem_cons_self)).1
      generalize added.map (·.entry) = entries at hextends
      cases hextends with
      | aside haside => exact haside
      | dispatch e hlive => exact absurd (hstopped.symm.trans hlive) nofun
    · generalize added.map (·.entry) = entries at hextends hnew
      cases hextends with
      | aside haside => exact hkept.isLast_aside (hnew ▸ haside)
      | @dispatch e body _ hwithin htold =>
        rcases List.cons_eq_append_iff.mp hnew with ⟨-, hfirst⟩ | ⟨rest', rfl, hrest⟩
        · cases hfirst
        · rcases split_append hrest with ⟨after', hbody, rfl⟩ | ⟨after', -, hlast⟩
          · exact hkept.isLast_dispatch hwithin htold hbody
          · rcases List.cons_eq_append_iff.mp hlast with ⟨-, hclosed⟩ | ⟨_, -, hnil⟩
            · cases hclosed
            · exact absurd hnil.symm (by simp)

/-- Whoever is live behind entries was so in front of them or has subscribed
in them. -/
theorem mem_live_notes {l : Ledger} {entries : List Entry} {id : ObserverId}
    (h : id ∈ (l.notes entries).live) : id ∈ l.live ∨ .subscribed id ∈ entries := by
  induction entries generalizing l with
  | nil => exact .inl h
  | cons entry rest ih =>
    rcases ih h with hlive | hlater
    · cases entry with
      | subscribed new =>
        rcases List.mem_append.mp hlive with hold | hnew
        · exact .inl hold
        · exact .inr (List.mem_singleton.mp hnew ▸ List.mem_cons_self)
      | unsubscribed gone removed => exact .inl (List.mem_of_mem_filter hlive)
      | cleared => exact nomatch hlive
      | called i | returned i => exact .inl (Ledger.live_onRound l _ ▸ hlive)
      | counted n | opened e | closed => exact .inl hlive
    · exact .inr (List.mem_cons_of_mem _ hlater)

/-- Whoever is live at some point behind a stop has subscribed since. -/
theorem mem_liveAfter_stop {before mid : List Entry} {id : ObserverId}
    (h : id ∈ liveAfter (before ++ .cleared :: mid)) : .subscribed id ∈ mid := by
  rw [liveAfter, Ledger.ofEntries, Ledger.notes_append, Ledger.notes_cons] at h
  exact (mem_live_notes h).resolve_left List.not_mem_nil

/-- What a stop leaves of a detector `d`, where `before` was written down in
front of it and `after` behind it. -/
structure Silences (b : Behaviour (Observer κ) (Control υ)) (before after : List Entry)
    (d : Detector κ υ) : Prop where
  last : IsLast before after
  /-- Nobody is left of those that had subscribed before, and no dispatch
  has anybody in its hands. -/
  gone : d.hub.registry.inFlight = [] ∧
    ∀ id, .subscribed id ∈ before → id ∉ idsOf d.hub.registry.idle
  /-- Wherever it is stopped again, that removes none but those that have
  subscribed since. -/
  again : ∀ mid rest, after = mid ++ .cleared :: rest →
    ∀ id ∈ liveAfter (before ++ .cleared :: mid), .subscribed id ∈ mid
  /-- One more stop now lets these go and changes nothing else. -/
  stop_eq : d.stop b = d.withHub ⟨{ d.hub.registry with idle := [] },
    Hub.releaseAll b d.hub.registry.idle d.hub.world⟩
  start_eq : ∀ watch, d.start watch = (d, .error .stopped)

/-- **A stop is final.** Every dispatch comes to an end, and wherever in the
course of a detector it is stopped, by another task or by an observer that
is being told: no dispatch begins behind that, the one that is running tells
those with which it has begun, and nobody else is told of anything. Those
that had subscribed are gone, stopping again can only remove those that have
subscribed since, and a start fails. -/
theorem stop_is_final {custom : κ → Event → Reaction κ υ} (htame : ∀ o e, Tame (custom o e))
    {path : String} {user : υ} {d : Detector κ υ} {ms : List (Moment (Observer κ))}
    (h : Course (observerBehaviour custom) path user d ms) :
    (∀ depth sight tail v rest, d.loop = some ⟨tail, .delivering (v :: rest)⟩ →
      (d.advance (observerBehaviour custom) (depth + 1) sight).isSome = true) ∧
    ∀ before after, ms.map (·.entry) = before ++ .cleared :: after →
      Silences (observerBehaviour custom) before after d := by
  have hkept := kept htame h
  have hstores := hkept.agrees.stores hkept.atRest
  refine ⟨?ends, fun before after hstop => ?silences⟩
  case ends =>
    intro depth sight tail v rest hloop
    obtain ⟨hub, -, hresult, -⟩ := chronicle_dispatch htame depth (classify v) d.hub
    rw [Chronicle.result_ofDispatch] at hresult
    unfold Detector.advance
    simp only [hloop]
    split
    · rfl
    · simp [hresult]
  case silences =>
    have hshut := hkept.shut (hstop ▸ List.mem_append_right _ List.mem_cons_self)
    refine ⟨isLast htame h hstop, ⟨hstores.inFlight, ?gone⟩, ?again, ?stop_eq,
      Detector.start_of_isStopped hshut.1⟩
    case gone =>
      intro id hid hidle
      rw [hstores.idle, hstop] at hidle
      -- It would have subscribed twice.
      obtain ⟨earlier, rest, hms, rfl, hrest⟩ := List.map_eq_append_iff.mp hstop
      obtain ⟨m, later, rfl, hm, rfl⟩ := List.map_eq_cons_iff.mp hrest
      have hfollows := hkept.follows
      rw [hms, List.append_cons] at hfollows
      have hbefore : .subscribed id ∈ (earlier ++ [m]).map (·.entry) := by
        rw [List.map_append]
        exact List.mem_append_left _ hid
      have hdead : id ∉ liveAfter ((earlier ++ [m]).map (·.entry)) := by
        rw [List.map_append, List.map_singleton, hm]
        exact fun hlive => nomatch mem_liveAfter_stop hlive
      refine (hfollows.stays_dead hbefore hdead).1 ?_
      simpa [hm, liveAfter] using hidle
    case again => exact fun mid rest _ id hid => mem_liveAfter_stop hid
    case stop_eq =>
      have hcancel : d.hub.world.cancel = d.hub.world := by
        rw [Control.cancel, ← hshut.1, ← hshut.2]
      simp only [Detector.stop, Hub.clear, hcancel, hstores.inFlight, Detector.withHub,
        hstores.detached]

/-- Observers of two kinds: one stops the detector when it is told, the other
does nothing. -/
def stopping (stops : Bool) (_ : Event) : Reaction Bool Unit :=
  if stops then Reaction.stop (.done (.custom stops)) else .done (.custom stops)

theorem tame_stopping (stops : Bool) (e : Event) : Tame (stopping stops e) := by
  unfold stopping
  split
  · exact .stop (.done _)
  · exact .done _

/-- Of two objects in the log the first one is told to both observers,
although the first of them stops the detector; the second one is told to
nobody, and an observer that comes later is the only one that is left. -/
theorem selfStopped_is_final :
    ∃ d ms before after, Course (observerBehaviour stopping) "t.log" () d ms ∧
      ms.map (·.entry) = before ++ .cleared :: after ∧
      told [] (before ++ .cleared :: after)
        = [(classify (.object []), 0), (classify (.object []), 1)] ∧
      d.loop = some ⟨⟨4, Stream.start⟩, .ended⟩ ∧ idsOf d.hub.registry.idle = [2] ∧
      Silences (observerBehaviour stopping) before after d := by
  let b := observerBehaviour stopping
  let log : Sight := .log [0x7B, 0x7D, 0x7B, 0x7D]
  have hnew : Course b "t.log" () _ _ := .new
  have hstarted := ((hnew.step (.subscribe (.custom true))).step
    (.subscribe (.custom false))).step (.start (.ok ()))
  have hread := ((hstarted.step (.loop 1 log rfl)).step (.loop 1 log rfl)).step (.loop 1 log rfl)
  have htold := (hread.step (.loop 1 log rfl)).step (.loop 1 log rfl)
  have hlater := htold.step (.subscribe (.custom false))
  have hsilences := (stop_is_final tame_stopping hlater).2
    [.subscribed 0, .subscribed 1, .opened (classify (.object [])), .called 0]
    [.returned 0, .called 1, .returned 1, .closed, .subscribed 2] rfl
  refine ⟨_, _, _, _, hlater, rfl, ?_, rfl, rfl, hsilences⟩
  exact hsilences.last.inside [.subscribed 0, .subscribed 1] _ [.called 0] rfl (by simp)

/-- Stopping again is not without effect: an observer that has subscribed
since is let go. -/
theorem later_stop_removes :
    ∃ d ms, Course (observerBehaviour stopping) "t.log" () d ms ∧
      .cleared ∈ ms.map (·.entry) ∧ d.observerCount = 1 ∧
      (d.stop (observerBehaviour stopping)).observerCount = 0 := by
  have hnew : Course (observerBehaviour stopping) "t.log" () _ _ := .new
  have hlater := (hnew.step .stop).step (.subscribe (.custom false))
  exact ⟨_, _, hlater, List.mem_cons_self, rfl, rfl⟩

end Course

end Runwatch.Telemetry
