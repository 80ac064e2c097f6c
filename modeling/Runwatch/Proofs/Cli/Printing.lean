/-
Runwatch.Proofs.Cli.Printing — what a command prints up to a finish.

The printer and the waiter are told of the events in the order of the log,
the printer first. The two leave the registry together with the command: the
waiter when it gives up its wait, the printer when it has stopped the
detector; but who is in the hands of a dispatch by then is told all the same.
So the lines encode the first events of the log (`Encodes`), whatever the two
tasks do to one another, and when the waiter has found the finish, its line is
printed.

  §1 Reading  — what is dispatched are the first events of the log, whatever
                the reads find (`Following.Inv.reads`).
  §2 Seats    — where the two observers are and what they have heard
                (`Seats`), and what each step makes of that.
  §3 Printing — what every step keeps (`Tailing.Kept`), and what is printed.

The main statement is `Tailing.Reachable.prints_through_finish`.
-/
import Runwatch.Proofs.Cli.Lines
import Runwatch.Proofs.Cli.Tailing

namespace Runwatch.Telemetry

variable {κ υ : Type} {d d' : Detector κ υ} {log : Option (List UInt8)} {dispatched : List Event}

/-! ## §1 Reading -/

/-- Where a loop stands that looks at the log next. -/
def Phase.Sees : Phase → Prop
  | .looking | .measuring | .reading _ => True
  | _ => False

theorem Detector.advance_blind {b : Behaviour (Observer κ) (Control υ)} {depth : Nat} {tail : Tail}
    {phase : Phase} (hloop : d.loop = some ⟨tail, phase⟩) (hblind : ¬ phase.Sees)
    (sight sight' : Sight) : d.advance b depth sight = d.advance b depth sight' := by
  cases phase with
  | looking | measuring | reading _ => exact absurd trivial hblind
  | delivering values => cases values <;> simp [advance, hloop]
  | parked | draining | ended => simp [advance, hloop]

namespace Following

open Cli (Finds)

/-- A loop that cannot read goes back to where it waits. -/
theorem Keeps.parks {bytes : List UInt8} {signals : Nat} {tail : Tail} {phase : Phase}
    {content : List UInt8} {objects : List Json.Value}
    (h : Keeps bytes signals true dispatched ⟨tail, phase⟩ content objects)
    (htold : dispatched = objects.map classify) (signals' : Nat) :
    Keeps bytes signals' true dispatched ⟨tail, .parked⟩ content objects :=
  ⟨h.read, h.begins, htold, .inr (.inr rfl)⟩

/-- A step of the loop that dispatches nothing keeps it up with its log. -/
theorem Inv.reads {b : Behaviour (Observer κ) (Control υ)} {depth : Nat} {sight : Sight}
    (hinv : Inv ⟨d, log, true, dispatched⟩) (hfinds : Finds log sight)
    (hquiet : d.dispatching = []) (h : d.advance b depth sight = some d') :
    Inv ⟨d', log, true, dispatched⟩ := by
  -- What the loop does that sees the log is known.
  have hseen (h : d.advance b depth (Sight.ofLog log) = some d') :
      Inv ⟨d', log, true, dispatched⟩ := by
    have hstep : Step b ⟨d, log, true, dispatched⟩ _ := .loop h
    simpa [hquiet] using hstep.inv hinv
  obtain ⟨⟨tail, phase⟩, content, objects, hloop, hkeeps⟩ := hinv
  replace hloop : d.loop = some ⟨tail, phase⟩ := hloop
  by_cases hsees : phase.Sees
  case neg => exact hseen (Detector.advance_blind hloop hsees sight _ ▸ h)
  case pos =>
    cases hfinds with
    | missing | log _ => exact hseen h
    | closed log fault =>
      rw [Detector.advance, hloop] at h
      cases phase with
      | looking | measuring | reading length =>
        obtain rfl := Option.some.inj h
        exact ⟨_, content, objects, rfl, hkeeps.parks hkeeps.told _⟩
      | parked | draining | delivering _ | ended => exact hsees.elim
    | unreadable bytes fault =>
      rw [Detector.advance, hloop] at h
      cases phase with
      | looking => exact hseen (by rw [Detector.advance, hloop]; exact h)
      | measuring =>
        obtain rfl := Option.some.inj h
        -- The log is no shorter than what was read, so the tail stays.
        have hlength : content.length ≤ bytes.length := hkeeps.begins.length_le
        have hsame : tail.measured bytes.length = tail := by
          rw [Tail.measured, hkeeps.read.offset, if_neg (Nat.not_lt.mpr hlength)]
        exact ⟨_, content, objects, rfl, hsame.symm ▸ hkeeps.parks hkeeps.told _⟩
      | reading length =>
        obtain rfl := Option.some.inj h
        exact ⟨_, content, objects, rfl, hkeeps.parks hkeeps.told _⟩
      | parked | draining | delivering _ | ended => exact hsees.elim

end Following

end Runwatch.Telemetry

namespace Runwatch.Cli

open Telemetry

/-! ## §2 Seats -/

/-- The test of the waiter. -/
def finishTest : List Event → Event → Bool := fun _ e => EventTest.agentFinish.accepts e

def printer : ObserverId × Observer Unit := (printerId, .custom ())

/-- The waiter when it has heard of these events. -/
def waiter (heard : List Event) : ObserverId × Observer Unit :=
  (waiterId, .listening waiterKey finishTest heard)

/-- Both, in the order in which they subscribed. -/
def crew (heard : List Event) : List (ObserverId × Observer Unit) := [printer, waiter heard]

/-- Who of the two has not been removed yet. -/
inductive Staff where
  | both
  | printer
  | nobody

def Staff.ids : Staff → List ObserverId
  | .both => [printerId, waiterId]
  | .printer => [printerId]
  | .nobody => []

/-- Whom the command has not removed yet. -/
def Stage.staff : Stage → Staff
  | .waiting | .leaving _ => .both
  | .stopping _ | .flagged _ | .unwatched _ => .printer
  | .cleared _ => .nobody

/-- A registry with those of the two that are left, and no dispatch. -/
def resting (staff : Staff) (heard : List Event) : Registry (Observer Unit) :=
  ⟨(crew heard).filter fun o => staff.ids.contains o.1, [], [], 2⟩

/-- The registry while a dispatch has taken the observers with these
numbers. -/
def giving (staff : Staff) (ids : List ObserverId) : Registry (Observer Unit) :=
  ⟨[], ids, ids.filter fun id => !staff.ids.contains id, 2⟩

/-- How far the dispatch of `e` is behind that of `earlier`: whom it has told
and whom not, what is printed and what the waiter has heard. -/
inductive Round (e : Event) (earlier : List Event) :
    (told untold : List (ObserverId × Observer Unit)) → (printed heard : List Event) → Prop where
  | nobody {printed heard} (h : printed <+: earlier) : Round e earlier [] [] printed heard
  | aloneUntold {heard} : Round e earlier [] [printer] earlier heard
  | aloneTold {heard} : Round e earlier [printer] [] (earlier ++ [e]) heard
  | bothUntold : Round e earlier [] (crew earlier) earlier earlier
  | printerTold : Round e earlier [printer] [waiter earlier] (earlier ++ [e]) earlier
  | bothTold : Round e earlier (crew (earlier ++ [e])) [] (earlier ++ [e]) (earlier ++ [e])

/-- What is printed while nobody is being told: all that was dispatched, as
long as the printer is there. -/
structure Prints (staff : Staff) (dispatched printed : List Event) : Prop where
  initial : printed <+: dispatched
  whole : printerId ∈ staff.ids → printed = dispatched

/-- Where the two are: in the registry, or in the hands of a dispatch. -/
inductive Seats (staff : Staff) :
    Registry (Observer Unit) → Turn → (dispatched printed heard : List Event) → Prop where
  | idle {dispatched printed} (h : Prints staff dispatched printed) :
      Seats staff (resting staff dispatched) .none dispatched printed dispatched
  | called {e earlier printed} (h : Prints staff earlier printed) :
      Seats staff (resting staff earlier) (.called e) (earlier ++ [e]) printed earlier
  | telling {e earlier told untold printed heard} (h : Round e earlier told untold printed heard)
      (hstaff : staff.ids ⊆ idsOf (told ++ untold)) :
      Seats staff (giving staff (idsOf (told ++ untold))) (.telling ⟨e, told, untold⟩)
        (earlier ++ [e]) printed heard

theorem Round.printed_isPrefix {e : Event} {earlier printed heard : List Event}
    {told untold : List (ObserverId × Observer Unit)}
    (h : Round e earlier told untold printed heard) : printed <+: earlier ++ [e] := by
  cases h with
  | nobody h => exact h.trans (List.prefix_append _ _)
  | aloneUntold | bothUntold => exact List.prefix_append _ _
  | aloneTold | printerTold | bothTold => exact List.prefix_refl _

variable {staff : Staff} {r : Registry (Observer Unit)} {w : Control (List String)} {turn : Turn}
  {dispatched printed heard : List Event}

/-- What is printed are the first of the events that are dispatched. -/
theorem Seats.printed_isPrefix (h : Seats staff r turn dispatched printed heard) :
    printed <+: dispatched := by
  cases h with
  | idle h => exact h.initial
  | called h => exact h.initial.trans (List.prefix_append _ _)
  | telling h _ => exact h.printed_isPrefix

/-- As long as both are there, what the waiter has heard is printed. -/
theorem Seats.heard_isPrefix (h : Seats .both r turn dispatched printed heard) :
    heard <+: printed := by
  cases h with
  | idle h | called h => exact (h.whole (by decide)) ▸ List.prefix_refl _
  | telling h hstaff =>
    cases h with
    | nobody _ | aloneUntold | aloneTold => exact absurd hstaff (by decide)
    | bothUntold | bothTold => exact List.prefix_refl _
    | printerTold => exact List.prefix_append _ _

/-- A dispatch begins. -/
theorem Seats.opens {e : Event} (h : Seats staff r (.called e) dispatched printed heard) :
    Seats staff (Hub.takeBatch ⟨r, w⟩).1.registry (.telling ⟨e, [], (Hub.takeBatch ⟨r, w⟩).2⟩)
      dispatched printed heard := by
  cases h with
  | called h =>
    cases staff with
    | both =>
      obtain rfl := h.whole (by decide)
      exact .telling .bothUntold (List.Subset.refl _)
    | printer =>
      obtain rfl := h.whole (by decide)
      exact .telling .aloneUntold (by decide)
    | nobody => exact .telling (.nobody h.initial) (by decide)

/-- A dispatch ends. If nobody has been removed, nobody is let go. -/
theorem Seats.closes {e : Event} {told : List (ObserverId × Observer Unit)}
    (h : Seats staff r (.telling ⟨e, told, []⟩) dispatched printed heard) :
    ∃ heard', Seats staff (Hub.mergeBatch followerBehaviour ⟨r, w⟩ told).registry .none dispatched
        printed heard' ∧
      (staff = .both →
        heard' = heard ∧ (Hub.mergeBatch followerBehaviour ⟨r, w⟩ told).world = w) := by
  cases h with
  | @telling e earlier _ _ _ _ h hstaff =>
    cases h with
    | nobody h =>
      cases staff with
      | nobody => exact ⟨_, .idle ⟨h.trans (List.prefix_append _ _), nofun⟩, nofun⟩
      | both | printer => exact absurd hstaff (by decide)
    | aloneTold =>
      have hprints : Prints staff (earlier ++ [e]) (earlier ++ [e]) :=
        ⟨List.prefix_refl _, fun _ => rfl⟩
      cases staff with
      | nobody | printer => exact ⟨_, .idle hprints, nofun⟩
      | both => exact absurd hstaff (by decide)
    | bothTold =>
      have hprints : Prints staff (earlier ++ [e]) (earlier ++ [e]) :=
        ⟨List.prefix_refl _, fun _ => rfl⟩
      cases staff with
      | nobody | printer => exact ⟨_, .idle hprints, nofun⟩
      | both => exact ⟨_, .idle hprints, fun _ => ⟨rfl, rfl⟩⟩

/-- One of the two is told: the printer prints, and the waiter hears. -/
theorem Round.tells {e : Event} {earlier : List Event}
    {told untold : List (ObserverId × Observer Unit)} {id : ObserverId} {o next : Observer Unit}
    {hub hub' : Hub (Observer Unit) (Control (List String))}
    (h : Round e earlier told ((id, o) :: untold) printed heard)
    (hrun : Hub.runScript followerBehaviour (fun _ _ => none) (followerBehaviour.react o e) hub =
      some (hub', next)) :
    ∃ more heard', Round e earlier (told ++ [(id, next)]) untold (printed ++ more) heard' ∧
      hub'.registry = hub.registry ∧
      hub'.world.user = hub.world.user ++ more.map eventLine ∧
      (hub.world.post.box? waiterKey = some (.listening .waiting finishTest heard) →
        hub'.world.post.box? waiterKey = some (.listening .waiting finishTest heard')) := by
  cases h with
  | aloneUntold =>
    obtain ⟨rfl, rfl⟩ := Prod.mk.inj (Option.some.inj hrun)
    exact ⟨[e], heard, .aloneTold, rfl, rfl, id⟩
  | bothUntold =>
    obtain ⟨rfl, rfl⟩ := Prod.mk.inj (Option.some.inj hrun)
    exact ⟨[e], _, .printerTold, rfl, rfl, id⟩
  | printerTold =>
    obtain ⟨rfl, hbox⟩ := Observer.listening_hears hrun
    have hframe : hub'.registry = hub.registry ∧ hub'.world.user = hub.world.user := by
      rcases Telemetry.Scene.waiterReaction_cases hrun with
        ⟨-, rfl, -⟩ | ⟨-, -, rfl, -⟩ | ⟨-, -, rfl, -⟩ <;> exact ⟨rfl, rfl⟩
    refine ⟨[], _, ?_, hframe.1, by simpa using hframe.2, hbox⟩
    rw [List.append_nil]
    exact .bothTold

/-- The waiter is removed. -/
theorem Seats.leaves (h : Seats .both r turn dispatched printed heard) :
    Seats .printer (Hub.unsubscribe followerBehaviour ⟨r, w⟩ waiterId).1.registry turn dispatched
      printed heard := by
  cases h with
  | idle h => exact .idle ⟨h.initial, fun _ => h.whole (by decide)⟩
  | called h => exact .called ⟨h.initial, fun _ => h.whole (by decide)⟩
  | telling h hstaff =>
    have hprinter : Staff.printer.ids ⊆ Staff.both.ids := by decide
    cases h with
    | nobody _ | aloneUntold | aloneTold => exact absurd hstaff (by decide)
    | bothUntold => exact .telling .bothUntold hprinter
    | printerTold => exact .telling .printerTold hprinter
    | bothTold => exact .telling .bothTold hprinter

/-- The registry is cleared. -/
theorem Seats.clears (h : Seats staff r turn dispatched printed heard) :
    Seats .nobody (Hub.clear followerBehaviour ⟨r, w⟩).registry turn dispatched printed heard := by
  cases h with
  | idle h => exact .idle ⟨h.initial, nofun⟩
  | called h => exact .called ⟨h.initial, nofun⟩
  | telling h _ =>
    have hnobody (ids : List ObserverId) : Staff.nobody.ids ⊆ ids := List.nil_subset ids
    cases h with
    | nobody h => exact .telling (.nobody h) (hnobody _)
    | aloneUntold => exact .telling .aloneUntold (hnobody _)
    | aloneTold => exact .telling .aloneTold (hnobody _)
    | bothUntold => exact .telling .bothUntold (hnobody _)
    | printerTold => exact .telling .printerTold (hnobody _)
    | bothTold => exact .telling .bothTold (hnobody _)

theorem Seats.calls (h : Seats staff r .none dispatched printed heard) (e : Event) :
    Seats staff r (.called e) (dispatched ++ [e]) printed heard := by
  cases h with
  | idle h => exact .called h

theorem Seats.tells {e : Event} {told untold : List (ObserverId × Observer Unit)} {id : ObserverId}
    {o next : Observer Unit} {hub : Hub (Observer Unit) (Control (List String))}
    (h : Seats staff r (.telling ⟨e, told, (id, o) :: untold⟩) dispatched printed heard)
    (hrun : Hub.runScript followerBehaviour (fun _ _ => none) (followerBehaviour.react o e) ⟨r, w⟩ =
      some (hub, next)) :
    ∃ more heard', Seats staff hub.registry (.telling ⟨e, told ++ [(id, next)], untold⟩) dispatched
        (printed ++ more) heard' ∧
      hub.world.user = w.user ++ more.map eventLine ∧
      (w.post.box? waiterKey = some (.listening .waiting finishTest heard) →
        hub.world.post.box? waiterKey = some (.listening .waiting finishTest heard')) := by
  cases h with
  | telling h hstaff =>
    obtain ⟨more, heard', hround, hregistry, huser, hbox⟩ := h.tells hrun
    refine ⟨more, heard', ?_, huser, hbox⟩
    have hids : idsOf (told ++ (id, o) :: untold) = idsOf (told ++ [(id, next)] ++ untold) := by
      simp
    rw [hids] at hstaff hregistry
    rw [hregistry]
    exact .telling hround hstaff

/-! ## §3 Printing -/

/-- An answer is an event whose line is printed, the first that the test
accepts. -/
def Ending.Fits (printed : List Event) : Ending → Prop
  | .answered r => ∃ e, r = .ok e ∧ (listen finishTest [] printed).2 = some e
  | .interrupted => True

theorem Ending.Fits.append {why : Ending} (h : why.Fits printed) (more : List Event) :
    why.Fits (printed ++ more) := by
  cases why with
  | interrupted => trivial
  | answered r =>
    obtain ⟨e, rfl, he⟩ := h
    exact ⟨e, rfl, by rw [listen_of_some (by rw [he]; rfl), he]⟩

/-- As long as the command waits, its mailbox holds what the waiter has
found. -/
def Stage.Fits (post : Post) (printed heard : List Event) (stage : Stage) : Prop :=
  match stage.ending? with
  | none => post.box? waiterKey = some (.listening .waiting finishTest heard)
  | some why => why.Fits printed

/-- It stays so when more is printed, and the mailbox follows the waiter. -/
theorem Stage.Fits.next {stage : Stage} {post post' : Post} {heard' : List Event}
    (h : stage.Fits post printed heard) (more : List Event)
    (hbox : stage = .waiting → post.box? waiterKey = some (.listening .waiting finishTest heard) →
      post'.box? waiterKey = some (.listening .waiting finishTest heard')) :
    stage.Fits post' (printed ++ more) heard' := by
  cases stage with
  | waiting => exact hbox rfl h
  | leaving _ | stopping _ | flagged _ | unwatched _ | cleared _ => exact Ending.Fits.append h more

namespace Tailing

variable {s s' : Tailing}

/-- What every step keeps. -/
structure Kept (s : Tailing) (dispatched printed heard : List Event) : Prop where
  reads : Following.Inv ⟨s.follower, s.log, true, dispatched⟩
  seats : Seats s.stage.staff s.follower.hub.registry s.turn dispatched printed heard
  lines : s.printed = printed.map eventLine
  fits : s.stage.Fits s.follower.hub.world.post printed heard

/-- The waiter is answered with the finish, and that is printed. -/
theorem Kept.answered (h : s.Kept dispatched printed heard) (hstage : s.stage = .waiting)
    {r : Except DetectError Event} (hanswer : (s.follower.pollWait waiterKey).2 = some r) :
    Ending.Fits printed (.answered r) := by
  obtain ⟨-, hseats, -, hfits⟩ := h
  rw [hstage] at hseats hfits
  have hpoll := Scene.pollWait_eq (s := ⟨s.follower, none, []⟩) hfits
  rw [hanswer, Box.listening] at hpoll
  cases hfound : (listen finishTest [] heard).2 with
  | none =>
    rw [hfound] at hpoll
    cases hpoll
  | some e =>
    rw [hfound] at hpoll
    obtain ⟨more, hmore⟩ := Seats.heard_isPrefix hseats
    have hfits : Ending.Fits heard (.answered r) := ⟨e, Option.some.inj hpoll, hfound⟩
    exact hmore ▸ hfits.append more

theorem Step.kept (hstep : Step s s') (h : s.Kept dispatched printed heard) :
    ∃ dispatched' printed' heard', s'.Kept dispatched' printed' heard' := by
  have hkept := h
  obtain ⟨⟨l, content, objects, hloop, hkeeps⟩, hseats, hlines, hfits⟩ := h
  cases hstep with
  | grows log hgrows =>
    refine ⟨dispatched, printed, heard, ⟨l, content, objects, hloop, ?_⟩, hseats, hlines, hfits⟩
    rcases hgrows with rfl | ⟨added, rfl⟩
    · exact hkeeps
    · exact hkeeps.wake (List.prefix_append _ _) (.inr rfl)
  | signal =>
    refine ⟨dispatched, printed, heard, ⟨l, content, objects, hloop, ?_⟩, hseats, hlines, hfits⟩
    exact hkeeps.wake (List.prefix_refl _) (.inr rfl)
  | @reads sight d hturn hfinds hquiet hadvance =>
    have hhub : d.hub = s.follower.hub := by
      rcases Detector.advance_cases hadvance with ⟨-, hhub⟩ | ⟨e, htells, -⟩
      · exact hhub
      · rw [hquiet] at htells
        cases htells
    refine ⟨dispatched, printed, heard, ?_, hhub ▸ hseats, ?_, hhub ▸ hfits⟩
    · exact Following.Inv.reads ⟨l, content, objects, hloop, hkeeps⟩ hfinds hquiet hadvance
    · exact (congrArg (·.world.user) hhub).trans hlines
  | @calls tail v rest hturn hvalues hlive =>
    obtain rfl : l = ⟨tail, .delivering (v :: rest)⟩ := Option.some.inj (hloop.symm.trans hvalues)
    obtain ⟨content', objects', hkeeps'⟩ := hkeeps.loopStep (.tell hlive)
    rw [hturn] at hseats
    exact ⟨_, printed, heard, ⟨_, content', objects', rfl, hkeeps'⟩, hseats.calls _, hlines, hfits⟩
  | opens hturn =>
    rw [hturn] at hseats
    exact ⟨dispatched, printed, heard, hkept.reads, hseats.opens, hlines, hfits⟩
  | tells hturn hrun =>
    rw [hturn] at hseats
    obtain ⟨more, heard', hseats', huser, hbox⟩ := hseats.tells hrun
    refine ⟨dispatched, printed ++ more, heard', hkept.reads, hseats', ?_,
      hfits.next more fun _ => hbox⟩
    rw [List.map_append, ← hlines]
    exact huser
  | closes hturn =>
    rw [hturn] at hseats
    obtain ⟨heard', hseats', hboth⟩ := hseats.closes (w := s.follower.hub.world)
    refine ⟨dispatched, printed, heard', hkept.reads, hseats', ?_, ?_⟩
    · exact (user_releaseAll _ _).trans hlines
    · rw [← List.append_nil printed]
      refine hfits.next [] fun hwaiting hbox => ?_
      obtain ⟨rfl, hworld⟩ := hboth (by rw [hwaiting]; rfl)
      exact (congrArg (Control.post · |>.box? waiterKey) hworld).trans hbox
  | answered hstage hanswer =>
    rw [Detector.fst_pollWait]
    rw [hstage] at hseats
    exact ⟨dispatched, printed, heard, hkept.reads, hseats, hlines,
      hkept.answered hstage hanswer⟩
  | interrupted hstage =>
    rw [hstage] at hseats
    exact ⟨dispatched, printed, heard, hkept.reads, hseats, hlines, trivial⟩
  | leaves hstage =>
    rw [hstage] at hseats hfits
    refine ⟨dispatched, printed, heard, hkept.reads, Seats.leaves hseats, ?_, hfits⟩
    exact (user_unsubscribe s.follower waiterId).trans hlines
  | flags hstage | unwatches hstage =>
    rw [hstage] at hseats hfits
    exact ⟨dispatched, printed, heard, hkept.reads, hseats, hlines, hfits⟩
  | clears hstage =>
    rw [hstage] at hseats hfits
    refine ⟨dispatched, printed, heard, hkept.reads, Seats.clears hseats, ?_, hfits⟩
    exact (user_releaseAll _ _).trans hlines
  | givenUp hstage hturn hloop' =>
    obtain rfl := Option.some.inj (hloop.symm.trans hloop')
    exact ⟨dispatched, printed, heard, ⟨_, content, objects, rfl, hkeeps.read, hkeeps.begins,
      Following.Told.isPrefix hkeeps.told, trivial⟩, hseats, hlines, hfits⟩

/-- The follower of a command that has just started its detector. -/
def begun (path : String) : Follower where
  path := path
  started := true
  signals := 0
  loop := some ⟨Tail.start, .looking⟩
  hub := ⟨resting .both [], ⟨false, true, ⟨[(waiterKey, .waiting)], 1⟩, []⟩⟩

theorem eq_begun {w : Surroundings} {settings : Settings} {taskRun : String}
    {logPath : Option String} {d : Follower}
    (h : (Session.beginCommand w settings (.tailTelemetry taskRun logPath true)).activity =
      .tail d waiterKey true) : ∃ path, d = begun path := by
  refine ⟨Session.telemetryPath settings taskRun logPath, ?_⟩
  simp only [Session.beginCommand, Session.beginFollowing] at h
  split at h
  · cases h
  · next hstart =>
    obtain ⟨rfl, -, -⟩ := Activity.tail.inj h
    generalize openWatch w.tree _ = watch at hstart
    cases watch with
    | error fault => cases hstart
    | ok watched => exact (Prod.mk.inj hstart).1.symm

theorem kept_begun (path : String) (log : Option (List UInt8)) :
    Kept ⟨begun path, log, .none, .waiting⟩ [] [] [] where
  reads := ⟨_, [], [], rfl, .start, List.nil_prefix, rfl, trivial⟩
  seats := .idle ⟨List.prefix_refl _, fun _ => rfl⟩
  lines := rfl
  fits := rfl

theorem Reachable.kept (h : s.Reachable) :
    ∃ dispatched printed heard, s.Kept dispatched printed heard := by
  induction h with
  | begins log h =>
    obtain ⟨path, rfl⟩ := eq_begun h
    exact ⟨[], [], [], kept_begun path log⟩
  | step _ hstep ih =>
    obtain ⟨dispatched, printed, heard, hkept⟩ := ih
    exact hstep.kept hkept

/-- What is printed are the first events in the log. -/
theorem Kept.initial (h : s.Kept dispatched printed heard) :
    ∃ f : Framing UInt8, f.Valid byteMark ∧ f.symbols = s.bytes ∧
      printed <+: f.values.map classify := by
  obtain ⟨f, hf, hsymbols, -⟩ := exists_framing byteMark s.bytes
  have hvalues : (Stream.start.feed s.bytes).2 = f.values := by
    rw [← hsymbols, Stream.feed_framing hf]
  have hread : dispatched <+: f.values.map classify := hvalues ▸ h.reads.dispatched_isPrefix
  exact ⟨f, hf, hsymbols, h.seats.printed_isPrefix.trans hread⟩

/-- A command with an answer has the first finish among them. -/
theorem Kept.finished (h : s.Kept dispatched printed heard) {r : Except DetectError Event}
    (hending : s.stage.ending? = some (.answered r)) :
    ∃ e before after, r = .ok e ∧ printed = before ++ e :: after ∧
      e.isAgentFinish = true ∧ ∀ x ∈ before, x.isAgentFinish = false := by
  have hfits := h.fits
  rw [Stage.Fits, hending] at hfits
  obtain ⟨e, rfl, hfound⟩ := hfits
  rcases listen_eq finishTest [] printed with
    ⟨before, e', after, hsplit, hlisten, haccepts, hbefore⟩ | ⟨hlisten, -⟩
  · rw [hlisten] at hfound
    obtain rfl : e' = e := Option.some.inj hfound
    refine ⟨e', before, after, rfl, hsplit, haccepts, fun x hx => ?_⟩
    obtain ⟨earlier, later, rfl⟩ := List.append_of_mem hx
    exact hbefore earlier x later rfl
  · rw [hlisten] at hfound
    cases hfound

/-- **What a command prints up to the finish is a beginning of the log
without gaps.** However its two tasks fall into one another, and whatever is
appended to the log between any two of their steps, the lines are the JSON
encodings of the first events in the log, in order, each of them once. If the
command has stopped waiting with an answer, that is an event, the first in the
log that tells of a finish, and its line is among them. -/
theorem Reachable.prints_through_finish (h : s.Reachable) :
    ∃ f : Framing UInt8, f.Valid byteMark ∧ f.symbols = s.bytes ∧
      ∃ printed, printed <+: f.values.map classify ∧
        s.printed = printed.map (fun e => Json.compact e.toJson) ∧
        List.Forall₂ Encodes s.printed printed ∧
        ∀ r, s.stage.ending? = some (.answered r) →
          ∃ e before after, r = .ok e ∧ printed = before ++ e :: after ∧
            e.isAgentFinish = true ∧ ∀ x ∈ before, x.isAgentFinish = false := by
  obtain ⟨dispatched, printed, heard, hkept⟩ := h.kept
  obtain ⟨f, hf, hsymbols, hinitial⟩ := hkept.initial
  exact ⟨f, hf, hsymbols, printed, hinitial, hkept.lines,
    hkept.lines ▸ encodes_initial hinitial, fun r => hkept.finished⟩

/-- An agent has finished, and something else is told behind it. -/
def finishedLog : List UInt8 :=
  [0x7B, 0x22, 0x65, 0x76, 0x65, 0x6E, 0x74, 0x5F, 0x6E, 0x61, 0x6D, 0x65, 0x22, 0x3A, 0x22, 0x61,
    0x67, 0x65, 0x6E, 0x74, 0x5F, 0x66, 0x69, 0x6E, 0x69, 0x73, 0x68, 0x22, 0x7D, 0x7B, 0x7D]

def finish : Event := .completion (.agentFinish none none none)

def finishLine : String :=
  "\x7b\"kind\":\"completion\",\"event\":\x7b\"type\":\"agent_finish\",\"terminate_reason\":null," ++
    "\"turn_count\":null,\"duration_ms\":null\x7d\x7d"

theorem compact_finish : Json.compact finish.toJson = finishLine := by decide

/-- The command gives up its wait while the dispatch of the finish still holds
the two, and stops when the loop has found the detector running and is about
to tell of the next event. That one is told to nobody. -/
theorem stoppedBehind_prints :
    ∃ s : Tailing, s.Reachable ∧ s.bytes = finishedLog ∧
      s.stage = .cleared (.answered (.ok finish)) ∧ s.printed = [finishLine] ∧
      ∃ before after, before ++ finish :: after <+: [finish, .other (.object [])] ∧
        s.printed = (before ++ finish :: after).map (fun e => Json.compact e.toJson) ∧
        List.Forall₂ Encodes s.printed (before ++ finish :: after) := by
  have hbegun : Reachable ⟨begun "t.log", none, .none, .waiting⟩ :=
    @Reachable.begins ⟨⟨.empty, []⟩, fun _ => none, ⟨0, 0⟩, fun _ => .lost⟩ .standard "run"
      (some "t.log") _ none rfl
  have hgrown := hbegun.step (.grows (some finishedLog) (.inr ⟨finishedLog, rfl⟩))
  have hmeasured := (hgrown.step (.reads rfl (.log _) rfl rfl)).step (.reads rfl (.log _) rfl rfl)
  have hread := hmeasured.step (.reads rfl (.log _) rfl rfl)
  have hopened := (hread.step (.calls rfl rfl rfl)).step (.opens rfl)
  have htold := (hopened.step (.tells rfl rfl)).step (.tells rfl rfl)
  have hleft := (htold.step (.answered rfl rfl)).step (.leaves rfl)
  have hcalled := (hleft.step (.closes rfl)).step (.calls rfl rfl rfl)
  have hstopped := ((hcalled.step (.flags rfl)).step (.unwatches rfl)).step (.clears rfl)
  have hclosed := (hstopped.step (.opens rfl)).step (.closes rfl)
  obtain ⟨f, hf, hsymbols, printed, hinitial, hlines, hencodes, hanswer⟩ :=
    hclosed.prints_through_finish
  obtain ⟨e, before, after, he, rfl, -⟩ := hanswer _ rfl
  obtain rfl : finish = e := Except.ok.inj he
  have hvalues : f.values.map classify = [finish, .other (.object [])] := by
    have hfeed := congrArg Prod.snd (Stream.feed_framing hf)
    rw [hsymbols] at hfeed
    exact congrArg (List.map classify) hfeed.symm
  exact ⟨_, hclosed, rfl, rfl, congrArg (fun line => [line]) compact_finish, before, after,
    hvalues ▸ hinitial, hlines, hencodes⟩

end Tailing

/-- The same of a session that tails a log: its lines encode the first events
in it, and it comes to no error. -/
theorem Tails.lines_initial {s : Session} {log : Option (List UInt8)} (h : Tails s log) :
    ∃ f : Framing UInt8, f.Valid byteMark ∧ f.symbols = log.getD [] ∧
      ∃ printed, printed <+: f.values.map classify ∧
        s.lines = printed.map (fun e => Json.compact e.toJson) ∧
        List.Forall₂ Encodes s.lines printed ∧ ∀ r, s.activity = .over r → r = .ok () := by
  obtain ⟨t, hreached, rfl, hshows⟩ := h.exists_reachable
  obtain ⟨dispatched, printed, heard, hkept⟩ := hreached.kept
  obtain ⟨f, hf, hsymbols, hinitial⟩ := hkept.initial
  have hlines : s.lines = printed.map fun e => Json.compact e.toJson :=
    hshows.lines.trans hkept.lines
  refine ⟨f, hf, hsymbols, printed, hinitial, hlines, hlines ▸ encodes_initial hinitial,
    fun r hover => ?_⟩
  cases hshows with
  | running hactivity _ _ _ _ =>
    rw [hactivity] at hover
    cases hover
  | @ended why hactivity _ hstage =>
    obtain rfl : why.result = r := Activity.over.inj (hactivity.symm.trans hover)
    cases why with
    | interrupted => rfl
    | answered r =>
      obtain ⟨e, before, after, rfl, -⟩ := hkept.finished (r := r) (by rw [hstage]; rfl)
      rfl

end Runwatch.Cli
