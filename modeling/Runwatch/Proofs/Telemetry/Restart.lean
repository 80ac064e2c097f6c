/-
Runwatch.Proofs.Telemetry.Restart — a start that fails, and what may follow it.

A start takes the detector's one chance before it sets up the watch. If the
watch cannot be set up, the observers, the mailboxes and the stop stay as
they were, and the chance is gone: no start afterwards reads the log, whatever
else is done with the detector in between.

  §1 Rest       — a detector without a loop and without a watch
                  (`Detector.AtRest`), and the steps that keep it so.
  §2 Going on   — what may follow in a course (`Course.Onward`).
  §3 Starts     — what a failed start leaves (`Course.failed_start_is_final`).
-/
import Runwatch.Proofs.Telemetry.Silence

namespace Runwatch.Telemetry

variable {κ υ : Type}

/-! ## §1 Rest -/

/-- Nothing reads the log, and no change of it is heard of. -/
structure Detector.AtRest (d : Detector κ υ) : Prop where
  loop : d.loop = none
  watching : d.hub.world.watching = false

theorem Detector.atRest_ofPath (path : String) (user : υ) :
    (Detector.ofPath path user : Detector κ υ).AtRest := ⟨rfl, rfl⟩

/-- There is no loop that could take a step. -/
theorem Detector.AtRest.advance {d : Detector κ υ} (h : d.AtRest)
    (b : Behaviour (Observer κ) (Control υ)) (depth : Nat) (sight : Sight) :
    d.advance b depth sight = none := by
  unfold Detector.advance
  rw [h.loop]

/-- A change of the log is lost. -/
theorem Detector.AtRest.signal {d : Detector κ υ} (h : d.AtRest) : d.signal = d := by
  unfold Detector.signal
  rw [h.watching]
  rfl

theorem watching_unsubscribe (custom : κ → Event → Reaction κ υ)
    (hub : Hub (Observer κ) (Control υ)) (id : ObserverId) :
    (hub.unsubscribe (observerBehaviour custom) id).1.world.watching = hub.world.watching := by
  cases hfind : hub.registry.idle.find? (·.1 == id) with
  | some gone =>
    simp only [Hub.unsubscribe, hfind]
    exact watching_releaseAll custom [gone] hub.world
  | none =>
    simp only [Hub.unsubscribe, hfind]
    split <;> rfl

/-- Whoever uses the detector as observers do sets up no watch. -/
theorem Tame.watching {custom : κ → Event → Reaction κ υ} {script : Reaction κ υ}
    (htame : Tame script)
    {nested : Event → Hub (Observer κ) (Control υ) → Option (Hub (Observer κ) (Control υ))}
    {hub hub' : Hub (Observer κ) (Control υ)} {next : Observer κ}
    (h : Hub.runScript (observerBehaviour custom) nested script hub = some (hub', next))
    (hoff : hub.world.watching = false) : hub'.world.watching = false := by
  induction htame generalizing hub with
  | done o =>
    obtain ⟨rfl, -⟩ := Prod.mk.inj (Option.some.inj h)
    exact hoff
  | subscribe o _ ih => exact ih _ h hoff
  | unsubscribe id _ ih => exact ih _ h ((watching_unsubscribe custom hub id).trans hoff)
  | count _ ih => exact ih _ h hoff
  | stop _ ih => exact ih h (watching_releaseAll custom hub.registry.idle hub.world.cancel)
  | act f hf _ ih => exact ih _ h ((hf hub.world).2.trans hoff)

/-! ## §2 Going on -/

namespace Course

section

variable {custom : κ → Event → Reaction κ υ} {d d' d'' : Detector κ υ}
  {ms added : List (Moment (Observer κ))}

/-- The one step that ends a detector's rest is its first start, if the watch
can be set up; none of the others tells anybody of anything. -/
theorem Step.atRest (hstep : Step (observerBehaviour custom) d added d') (hrest : d.AtRest)
    (hstarts : d.started = true ∨ d'.started = false) :
    d'.AtRest ∧ (d.started = true → d'.started = true) ∧
      ∀ entry ∈ added.map (·.entry), entry.IsAside := by
  cases hstep with
  | loop depth sight h =>
    rw [hrest.advance] at h
    cases h
  | signal =>
    rw [hrest.signal]
    exact ⟨hrest, id, nofun⟩
  | start watch =>
    unfold Detector.start at hstarts ⊢
    by_cases hstop : d.isStopped = true
    · rw [if_pos hstop]
      exact ⟨hrest, id, nofun⟩
    · rw [if_neg hstop] at hstarts ⊢
      by_cases hstarted : d.started = true
      · rw [if_pos hstarted]
        exact ⟨hrest, id, nofun⟩
      · rw [if_neg hstarted] at hstarts ⊢
        -- It would be started behind this step, however the watch ends.
        cases watch <;> exact absurd (hstarts.resolve_left hstarted) nofun
  | @task script htame hub next h =>
    refine ⟨⟨hrest.loop, ?_⟩, fun hstarted => hstarted, ?_⟩
    · show hub.world.watching = false
      exact htame.watching h hrest.watching
    · obtain ⟨-, -, -, haside, -⟩ := htame.chronicle custom (fun _ _ => ⟨[], none⟩) d.hub
      exact haside

/-- A step of a detector that is started leaves it so. -/
theorem Step.started {b : Behaviour (Observer κ) (Control υ)} (hstep : Step b d added d')
    (h : d.started = true) : d'.started = true := by
  cases hstep with
  | loop depth sight hadvance => exact (Detector.advance_frame hadvance).2.trans h
  | signal =>
    unfold Detector.signal
    split <;> exact h
  | start watch =>
    unfold Detector.start
    rw [if_pos h]
    split <;> exact h
  | task _ _ => exact h

variable {path : String} {user : υ}

/-- Before the first start nothing reads the log. -/
theorem atRest_of_not_started (h : Course (observerBehaviour custom) path user d ms)
    (hfresh : d.started = false) : d.AtRest := by
  induction h with
  | new => exact Detector.atRest_ofPath path user
  | @step d d' ms added _ hstep ih =>
    have hbefore : d.started = false := by
      cases hstarted : d.started with
      | false => rfl
      | true => exact absurd ((hstep.started hstarted).symm.trans hfresh) nofun
    exact (hstep.atRest (ih hbefore) (.inr hfresh)).1

variable (custom) in
/-- What may follow at a detector, with what is written down of it. -/
inductive Onward (d : Detector κ υ) : List (Moment (Observer κ)) → Detector κ υ → Prop where
  | here : Onward d [] d
  | step {d' d'' : Detector κ υ} {ms added : List (Moment (Observer κ))}
      (h : Onward d ms d') (hstep : Step (observerBehaviour custom) d' added d'') :
      Onward d (ms ++ added) d''

/-- A detector that is started and at rest stays so, and nobody is told of
anything. -/
theorem Onward.atRest (h : Onward custom d ms d') (hrest : d.AtRest) (hstarted : d.started = true) :
    d'.AtRest ∧ d'.started = true ∧ ∀ entry ∈ ms.map (·.entry), entry.IsAside := by
  induction h with
  | here => exact ⟨hrest, hstarted, nofun⟩
  | @step d' d'' ms added _ hstep ih =>
    obtain ⟨hrest', hstarted', haside⟩ := ih
    obtain ⟨hrest'', hkeeps, hadded⟩ := hstep.atRest hrest' (.inl hstarted')
    refine ⟨hrest'', hkeeps hstarted', ?_⟩
    rw [List.map_append]
    exact List.forall_mem_append.mpr ⟨haside, hadded⟩

end

/-! ## §3 Starts -/

section

variable {d : Detector κ υ}

/-- A start that fails for the watch. -/
theorem start_error (hfresh : d.started = false) (hlive : d.isStopped = false)
    (fault : WatchFault) :
    d.start (.error fault) =
      ({ d with started := true }, .error (.watch d.directory fault)) := by
  unfold Detector.start
  rw [if_neg (hlive ▸ nofun), if_neg (hfresh ▸ nofun)]
  rfl

/-- A first start succeeds if the watch can be set up. -/
theorem start_ok (hfresh : d.started = false) (hlive : d.isStopped = false) :
    (d.start (.ok ())).2 = .ok () := by
  unfold Detector.start
  rw [if_neg (hlive ▸ nofun), if_neg (hfresh ▸ nofun)]

/-- Whatever becomes of the watch, a detector that is started is not started
again. -/
theorem start_again (hstarted : d.started = true) (watch : Except WatchFault Unit) :
    d.start watch =
      (d, .error (if d.isStopped then .stopped else .alreadyStarted d.path)) := by
  unfold Detector.start
  rw [if_pos hstarted]
  split <;> rfl

end

/-- What is left of a detector that failed to start, where `entries` were
written down since. -/
structure Forfeits (entries : List Entry) (d : Detector κ υ) : Prop where
  atRest : d.AtRest
  /-- Nobody is told of anything. -/
  silent : told [] entries = []
  /-- A later start changes nothing, and fails however the watch would end. -/
  start_eq : ∀ watch, d.start watch =
    (d, .error (if d.isStopped then .stopped else .alreadyStarted d.path))

/-- **A failed start is the last one.** Of a detector that is neither started
nor stopped, a start whose watch cannot be set up reports that, and leaves the
observers, what they can reach and the missing loop as they are. But where the
same start would have succeeded, none does behind it: whatever is done with
the detector then, nothing reads the log, nobody is told of anything, and
every start is answered that it was started already, or that it was stopped. -/
theorem failed_start_is_final {custom : κ → Event → Reaction κ υ} {path : String} {user : υ}
    {d : Detector κ υ} {ms : List (Moment (Observer κ))}
    (h : Course (observerBehaviour custom) path user d ms)
    (hfresh : d.started = false) (hlive : d.isStopped = false) (fault : WatchFault) :
    d.AtRest ∧ (d.start (.ok ())).2 = .ok () ∧
    d.start (.error fault) =
      ({ d with started := true }, .error (.watch d.directory fault)) ∧
    ∀ later d', Onward custom (d.start (.error fault)).1 later d' →
      Forfeits (later.map (·.entry)) d' := by
  have hrest := atRest_of_not_started h hfresh
  have hstart := start_error hfresh hlive fault
  refine ⟨hrest, start_ok hfresh hlive, hstart, ?_⟩
  intro later d' honward
  rw [hstart] at honward
  obtain ⟨hrest', hstarted, haside⟩ := honward.atRest ⟨hrest.loop, hrest.watching⟩ rfl
  exact {
    atRest := hrest'
    silent := told_of_isAside haside []
    start_eq := start_again hstarted }

/-- What a watch of a missing directory reports. -/
def missingLogs : WatchFault := .ofFault .missing "/logs"

/-- An observer subscribes, a start fails, the watch could be set up
afterwards, and a change of the log comes: the second start fails too, and the
observer is told of nothing. -/
theorem lateDirectory_forfeits :
    ∃ d ms later d', Course (observerBehaviour stopping) "logs/t.log" () d ms ∧
      (d.start (.error missingLogs)).2 = .error (.watch "logs" missingLogs) ∧
      Onward stopping (d.start (.error missingLogs)).1 later d' ∧
      d'.observerCount = 1 ∧ Forfeits (later.map (·.entry)) d' ∧
      (d'.start (.ok ())).2 = .error (.alreadyStarted "logs/t.log") := by
  have hnew : Course (observerBehaviour stopping) "logs/t.log" () _ _ := .new
  let d := ((Detector.ofPath "logs/t.log" ()).subscribe (.custom false : Observer Bool)).1
  have hsubscribed : Course (observerBehaviour stopping) "logs/t.log" () d _ :=
    hnew.step (.subscribe (.custom false))
  obtain ⟨-, -, hstart, hfinal⟩ := failed_start_is_final hsubscribed rfl rfl missingLogs
  have hfailed : Onward stopping (d.start (.error missingLogs)).1 [] _ := .here
  have honward := (hfailed.step (.start (.ok ()))).step .signal
  have hforfeits := hfinal _ _ honward
  have hdirectory : d.directory = "logs" := by decide +kernel
  rw [hdirectory] at hstart
  refine ⟨d, _, _, _, hsubscribed, congrArg Prod.snd hstart, honward, rfl, hforfeits, ?_⟩
  rw [hforfeits.start_eq]
  rfl

/-- A start that fails does cost the next one. -/
theorem retry_is_refused :
    let d : Detector Empty Unit := .ofPath "logs/t.log" ()
    (d.start (.ok ())).2 = .ok () ∧
    (d.start (.error missingLogs)).2 = .error (.watch "logs" missingLogs) ∧
    ((d.start (.error missingLogs)).1.start (.ok ())).2 =
      .error (.alreadyStarted "logs/t.log") := by
  intro d
  have hdirectory : d.directory = "logs" := by decide +kernel
  rw [start_error rfl rfl, hdirectory]
  exact ⟨rfl, rfl, rfl⟩

end Course

end Runwatch.Telemetry
