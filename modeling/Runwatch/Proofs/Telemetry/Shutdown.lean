/-
Runwatch.Proofs.Telemetry.Shutdown — stopping while others begin to wait.

Neither the beginning of a wait nor a stop is one step. Who waits subscribes
first, then looks whether the detector is stopped, and takes the waiter back
if it is; who stops sets the flag first, then drops the watch, and clears
the registry last. Any number of such calls may be under way at once, with
a dispatch among them that has taken the observers out of the registry. In a
race (`Race`) all of this falls apart into steps, in any order.

  §1 Registration — a number that is out of the registry stays out
                    (`Step.has_of_has`).
  §2 Senders      — a mailbox is open only as long as an observer has it
                    (`Tended`).
  §3 Races        — the steps of the calls (`Race.Step`), and that calls
                    which nobody interrupts are those of a scene
                    (`Race.exists_steps_of_run`).
  §4 Survivors    — what every step of a race keeps (`Race.Kept`): once a
                    stop has returned, no wait that was begun is registered.

The main statement is `Race.stop_ends_waits`.
-/
import Mathlib.Logic.Relation
import Runwatch.Proofs.Telemetry.Waiting

namespace Runwatch.Telemetry

variable {κ υ : Type}

/-! ## §1 Registration -/

namespace Scene

variable (custom : κ → Event → Reaction κ υ) {s s' : Scene κ υ} {id : ObserverId}

theorem has_iff {l : Ledger} (hl : Agrees l s.registry) : s.Has id ↔ id ∈ l.live := by
  rw [hl.live, List.mem_append, List.mem_filter, or_comm]
  simp [Has]

theorem has_of_has_remove (hs : Sound s) {other : ObserverId}
    (h : (s.remove (observerBehaviour custom) other).Has id) : s.Has id := by
  obtain ⟨l, hl, -⟩ := hs.agrees
  obtain ⟨-, hremoved⟩ := hl.unsubscribe (observerBehaviour custom) other
  exact (has_iff hl).mpr (List.mem_of_mem_filter ((has_iff hremoved).mp h))

/-- A new observer has a new number. -/
theorem has_of_has_subscribe (hs : Sound s) {o : Observer κ} {d : Detector κ υ}
    (hd : d.hub.registry = (s.detector.hub.subscribe o).1.registry) (hid : id < s.registry.next)
    (h : Has { s with detector := d } id) : s.Has id := by
  obtain ⟨l, hl, -⟩ := hs.agrees
  have hentered := hl.subscribe (h := s.detector.hub) o
  rw [← hd] at hentered
  have hlive := (has_iff (s := { s with detector := d }) hentered).mp h
  rcases List.mem_append.mp hlive with hold | hnew
  · exact (has_iff hl).mpr hold
  · exact absurd (List.mem_singleton.mp hnew) (Nat.ne_of_lt hid)

theorem has_of_has_enter (hs : Sound s) {accepts : List Event → Event → Bool}
    (hid : id < s.registry.next) (h : (s.enter accepts).Has id) : s.Has id :=
  has_of_has_subscribe hs rfl hid h

theorem not_has_clear (b : Behaviour (Observer κ) (Control υ)) {d : Detector κ υ}
    (hd : d.hub.registry = (s.detector.hub.clear b).registry) :
    ¬ Has { s with detector := d } id := by
  unfold Has registry
  simp [hd, Hub.clear]

/-- A step registers nobody under a number that was given out before. -/
theorem Step.has_of_has {h : Happening} (hstep : Step (observerBehaviour custom) s h s')
    (hs : Sound s) (hid : id < s.registry.next) (hhas : s'.Has id) : s.Has id := by
  obtain ⟨l, hl, hrounds⟩ := hs.agrees
  cases hstep with
  | subscribe o => exact has_of_has_subscribe hs rfl hid hhas
  | unsubscribe other => exact has_of_has_remove custom hs hhas
  | stop => exact absurd hhas (not_has_clear (observerBehaviour custom) rfl)
  | waitFor accepts =>
    rw [waitFor_eq] at hhas
    simp only at hhas
    split at hhas
    · have hentered := (grows_enter s accepts).sound hs (agrees_enter hs accepts)
      exact has_of_has_enter hs hid (has_of_has_remove custom hentered hhas)
    · exact has_of_has_enter hs hid hhas
  | @poll other key _ =>
    rw [poll_eq] at hhas
    simp only at hhas
    split at hhas
    · exact hhas
    · have hlooked : Sound (s.withPost (s.post.poll key).1) :=
        (grows_look s key).sound hs ⟨l, hl, hrounds⟩
      have hbefore := has_of_has_remove custom hlooked hhas
      exact hbefore
  | giveUp _ => exact has_of_has_remove custom hs hhas
  | other d hregistry _ _ =>
    unfold Has at hhas ⊢
    rwa [show Scene.registry { s with detector := d } = s.registry from hregistry] at hhas
  | opens e _ =>
    obtain ⟨hopened, -⟩ := hl.takeBatch (h := s.detector.hub) e
    exact (has_iff hl).mpr ((has_iff (s := s.opened e) hopened).mp hhas)
  | tellsCustom next _ => exact hhas
  | tellsWaiter _ hrun =>
    unfold Has at hhas ⊢
    have hregistry := (waiterReaction_frame hrun).1
    exact (congrArg (fun r => id ∈ idsOf (Registry.idle r) ∨
      id ∈ Registry.inFlight r ∧ id ∉ Registry.detached r) hregistry).mp hhas
  | @closes e told htelling =>
    have hlast : l.rounds = [⟨idsOf told, none, []⟩] := by
      rw [hrounds, rounds, htelling]
      simp
    obtain ⟨hclosed, -⟩ := hl.mergeBatch (h := s.detector.hub) (observerBehaviour custom) hlast
    exact (has_iff hl).mpr (by simpa [Ledger.note] using
      (has_iff (s := s.closed (observerBehaviour custom) told) hclosed).mp hhas)

end Scene

/-! ## §2 Senders -/

namespace Post

/-- Nobody opens a box by looking into one. -/
theorem waiting_of_poll {p : Post} {k key : Nat} (h : (p.poll k).1.box? key = some .waiting) :
    p.box? key = some .waiting := by
  by_cases hkey : key = k
  · subst hkey
    unfold poll at h
    split at h
    · exact h
    · next e heq =>
      rw [box?_update, if_pos rfl] at h
      cases hbox : p.box? key <;> simp [hbox] at h
    · exact h
    · exact h
  · rwa [box?_poll_of_ne hkey] at h

theorem box?_abandon (p : Post) (key : Nat) : (p.abandon key).box? key = none := by
  rw [box?, abandon, List.lookup_eq_none_iff]
  intro box hbox
  have hne := (List.mem_filter.mp hbox).2
  exact bne_iff_ne.mpr (bne_iff_ne.mp hne).symm

theorem waiting_of_abandon {p : Post} {k key : Nat} (h : (p.abandon k).box? key = some .waiting) :
    p.box? key = some .waiting := by
  by_cases hkey : key = k
  · rw [hkey, box?_abandon] at h
    cases h
  · rwa [box?_abandon_of_ne hkey] at h

end Post

theorem Box.shut_ne_waiting (b : Box) : b.shut ≠ .waiting := by cases b <;> simp [shut]

@[simp] theorem mailboxes_append (xs ys : List (ObserverId × Observer κ)) :
    mailboxes (xs ++ ys) = mailboxes xs ++ mailboxes ys := List.filterMap_append

namespace Scene

/-- An observer has every mailbox that is still open. -/
def Tended (s : Scene κ υ) : Prop :=
  ∀ key, s.post.box? key = some .waiting → key ∈ mailboxes s.observers

variable (custom : κ → Event → Reaction κ υ) {s s' : Scene κ υ}

/-- No box is opened, and who has an open one keeps it. -/
theorem Tended.of_keeps (h : s.Tended)
    (hopen : ∀ key, s'.post.box? key = some .waiting → s.post.box? key = some .waiting)
    (hkeeps : ∀ o ∈ s.observers, ∀ key, o.2.key? = some key →
      s'.post.box? key = some .waiting → key ∈ mailboxes s'.observers) : s'.Tended := by
  intro key hbox
  obtain ⟨o, ho, hkey⟩ := mem_mailboxes.mp (h key (hopen key hbox))
  exact hkeeps o ho key hkey hbox

theorem Tended.of_subset (h : s.Tended)
    (hopen : ∀ key, s'.post.box? key = some .waiting → s.post.box? key = some .waiting)
    (hobservers : s.observers ⊆ s'.observers) : s'.Tended :=
  h.of_keeps hopen fun o ho _ hkey _ => mem_mailboxes.mpr ⟨o, hobservers ho, hkey⟩

/-- Observers that are let go close their boxes. -/
theorem waiting_of_releaseAll {gone : List (ObserverId × Observer κ)} {c : Control υ} {key : Nat}
    (h : (Hub.releaseAll (observerBehaviour custom) gone c).post.box? key = some .waiting) :
    c.post.box? key = some .waiting ∧ key ∉ mailboxes gone := by
  rw [box?_releaseAll] at h
  split at h
  · obtain ⟨box, -, hshut⟩ := Option.map_eq_some_iff.mp h
    exact absurd hshut box.shut_ne_waiting
  · next hnot => exact ⟨h, hnot⟩

theorem Tended.remove (h : s.Tended) (hs : Sound s) (id : ObserverId) :
    (s.remove (observerBehaviour custom) id).Tended := by
  have hremoves := removes_remove custom s id
  -- The box of the one that goes is closed.
  have hgone : ∀ key, (s.remove (observerBehaviour custom) id).post.box? key = some .waiting →
      ∀ o ∈ s.registry.idle, o.2.key? = some key → o.1 ≠ id := by
    rintro key hbox ⟨_, o⟩ ho hkey rfl
    rw [box?_remove custom hs ho hkey] at hbox
    obtain ⟨box, -, hshut⟩ := Option.map_eq_some_iff.mp hbox
    exact box.shut_ne_waiting hshut
  refine h.of_keeps (fun key hbox => ?_) fun o ho key hkey hbox => ?_
  · exact (hremoves.box key (hgone key hbox)).symm.trans hbox
  · refine mem_mailboxes.mpr ⟨o, ?_, hkey⟩
    rcases List.mem_append.mp ho with hbatch | hidle
    · exact List.mem_append_left _ hbatch
    · exact List.mem_append_right _ (hremoves.stays o hidle (hgone key hbox o hidle hkey))

theorem Tended.enter (h : s.Tended) (accepts : List Event → Event → Bool) :
    (s.enter accepts).Tended := by
  have hobservers : (s.enter accepts).observers =
      s.observers ++ [(s.registry.next, .waiter s.post.next accepts [] false)] :=
    (List.append_assoc _ _ _).symm
  intro key hbox
  rw [hobservers, mailboxes_append]
  by_cases hkey : key = s.post.next
  · exact List.mem_append_right _ (hkey ▸ List.mem_singleton_self _)
  · rw [show (s.enter accepts).post = s.post.fresh.1 from rfl, Post.box?_fresh_of_ne hkey] at hbox
    exact List.mem_append_left _ (h key hbox)

theorem Tended.endWait (h : s.Tended) (hs : Sound s) (id : ObserverId) (key : Nat) :
    (s.endWait (observerBehaviour custom) id key).Tended :=
  (h.remove custom hs id).of_subset (fun _ hbox => Post.waiting_of_abandon hbox)
    (List.Subset.refl _)

theorem Tended.poll (h : s.Tended) (hs : Sound s) (id : ObserverId) (key : Nat) :
    (s.poll (observerBehaviour custom) id key).Tended := by
  have hlooked : (s.withPost (s.post.poll key).1).Tended :=
    h.of_subset (fun _ hbox => Post.waiting_of_poll hbox) (List.Subset.refl _)
  rw [poll_eq]
  simp only
  split
  · exact hlooked
  · obtain ⟨l, hl, hrounds⟩ := hs.agrees
    exact hlooked.endWait custom ((grows_look s key).sound hs ⟨l, hl, hrounds⟩) id key

/-- A registry that is cleared closes the boxes of all that are idle. -/
theorem Tended.clear (h : s.Tended) {d : Detector κ υ} {c : Control υ}
    (hsame : c.post = s.post)
    (hpost : d.hub.world.post =
      (Hub.releaseAll (observerBehaviour custom) s.registry.idle c).post) :
    Tended { s with detector := d } := by
  have hbox : ∀ key, Post.box? d.hub.world.post key = some .waiting →
      s.post.box? key = some .waiting ∧ key ∉ mailboxes s.registry.idle := by
    intro key hopen
    rw [hpost] at hopen
    rw [← hsame]
    exact waiting_of_releaseAll custom hopen
  refine h.of_keeps (fun key hopen => (hbox key hopen).1) fun o ho key hkey hopen => ?_
  rcases List.mem_append.mp ho with hbatch | hidle
  · exact mem_mailboxes.mpr ⟨o, List.mem_append_left _ hbatch, hkey⟩
  · exact absurd (mem_mailboxes.mpr ⟨o, hidle, hkey⟩) (hbox key hopen).2

theorem Tended.opened (h : s.Tended) (htelling : s.telling = none) (e : Event) :
    (s.opened e).Tended := by
  refine h.of_subset (fun _ hbox => hbox) fun o ho => ?_
  have hidle : o ∈ s.registry.idle := by
    simpa [observers, told, untold, htelling] using ho
  exact List.mem_append_left _ (List.mem_append_right _ hidle)

/-- Whoever is told of an event keeps its mailbox. -/
theorem Tended.tells (h : s.Tended) {e : Event} {told untold : List (ObserverId × Observer κ)}
    {id : ObserverId} {o next : Observer κ} (hub : Hub (Observer κ) (Control υ))
    (htelling : s.telling = some ⟨e, told, (id, o) :: untold⟩)
    (hregistry : hub.registry = s.registry) (hnext : next.key? = o.key?)
    (hopen : ∀ key, hub.world.post.box? key = some .waiting → s.post.box? key = some .waiting) :
    Tended
      { s with
        detector := s.detector.withHub hub
        telling := some ⟨e, told ++ [(id, next)], untold⟩ } := by
  refine h.of_keeps hopen fun o' ho' key hkey _ => ?_
  have hbefore : s.observers = told ++ (id, o) :: untold ++ s.registry.idle := by
    simp [observers, Scene.told, Scene.untold, htelling]
  have hafter : Scene.observers
      { s with
        detector := s.detector.withHub hub
        telling := some ⟨e, told ++ [(id, next)], untold⟩ } =
        told ++ (id, next) :: untold ++ s.registry.idle := by
    simp [observers, Scene.told, Scene.untold, registry, Detector.withHub, hregistry]
  rw [hafter]
  rw [hbefore] at ho'
  simp only [List.mem_append, List.mem_cons] at ho'
  rcases ho' with (hin | rfl | hin) | hin
  · exact mem_mailboxes.mpr ⟨o', by simp [hin], hkey⟩
  · exact mem_mailboxes.mpr ⟨(id, next), by simp, hnext.trans hkey⟩
  · exact mem_mailboxes.mpr ⟨o', by simp [hin], hkey⟩
  · exact mem_mailboxes.mpr ⟨o', by simp [hin], hkey⟩

/-- The boxes of those that a dispatch was still holding close with it. -/
theorem Tended.closed (h : s.Tended) {e : Event} {told : List (ObserverId × Observer κ)}
    (htelling : s.telling = some ⟨e, told, []⟩) :
    (s.closed (observerBehaviour custom) told).Tended := by
  have hbefore : s.observers = told ++ s.registry.idle := by
    simp [observers, Scene.told, Scene.untold, htelling]
  have hafter : (s.closed (observerBehaviour custom) told).observers =
      (Registry.settle s.registry.detached told).1 ++ s.registry.idle := rfl
  refine h.of_keeps (fun key hbox => (waiting_of_releaseAll custom hbox).1)
    fun o ho key hkey hbox => ?_
  have hstays := (waiting_of_releaseAll custom hbox).2
  refine mem_mailboxes.mpr ⟨o, ?_, hkey⟩
  rw [hbefore] at ho
  rw [hafter]
  rcases List.mem_append.mp ho with htold | hidle
  · have hparted := (settle_perm s.registry.detached told).mem_iff.mpr htold
    rcases List.mem_append.mp hparted with hkept | hgone
    · exact List.mem_append_left _ hkept
    · exact absurd (mem_mailboxes.mpr ⟨o, hgone, hkey⟩) hstays
  · exact List.mem_append_right _ hidle

/-- A waiter that is told opens no box. -/
theorem waiting_of_waiterReaction {nested : Event → Hub (Observer κ) (Control υ) →
      Option (Hub (Observer κ) (Control υ))} {key : Nat} {accepts : List Event → Event → Bool}
    {asked : List Event} {fired : Bool} {e : Event} {h h' : Hub (Observer κ) (Control υ)}
    {next : Observer κ} {b : Behaviour (Observer κ) (Control υ)}
    (hrun : Hub.runScript b nested (waiterReaction key accepts asked fired e) h = some (h', next))
    {other : Nat} (hbox : h'.world.post.box? other = some .waiting) :
    h.world.post.box? other = some .waiting := by
  by_cases hother : other = key
  · subst hother
    rcases waiterReaction_cases hrun with ⟨-, rfl, -⟩ | ⟨-, -, rfl, -⟩ | ⟨-, -, rfl, -⟩
    · exact hbox
    · simp only [Post.deliver, Post.box?_update, if_true] at hbox
      obtain ⟨box, -, hdelivered⟩ := Option.map_eq_some_iff.mp hbox
      cases box <;> cases hdelivered
    · exact hbox
  · obtain ⟨-, -, -, -, -, hframe⟩ := waiterReaction_frame hrun
    rwa [hframe other hother] at hbox

/-- Every step leaves the open mailboxes to those who have them. -/
theorem Step.tended {h : Happening} (hstep : Step (observerBehaviour custom) s h s')
    (hs : Sound s) (htended : s.Tended) : s'.Tended := by
  cases hstep with
  | subscribe o =>
    refine htended.of_subset (fun _ hbox => hbox) fun o' ho' => ?_
    rcases List.mem_append.mp ho' with hbatch | hidle
    · exact List.mem_append_left _ hbatch
    · exact List.mem_append_right _ (List.mem_append_left _ hidle)
  | unsubscribe id => exact htended.remove custom hs id
  | stop => exact htended.clear custom (c := s.detector.hub.world.cancel) rfl rfl
  | waitFor accepts =>
    have hentered := htended.enter accepts
    rw [waitFor_eq]
    simp only
    split
    · exact hentered.remove custom ((grows_enter s accepts).sound hs (agrees_enter hs accepts)) _
    · exact hentered
  | poll _ => exact htended.poll custom hs _ _
  | giveUp _ => exact htended.endWait custom hs _ _
  | other d hregistry hpost _ =>
    have hobservers : s.observers = Scene.observers { s with detector := d } :=
      congrArg (s.told ++ s.untold ++ Registry.idle ·) hregistry.symm
    exact htended.of_subset (fun _ hbox => hpost ▸ hbox) (hobservers ▸ List.Subset.refl _)
  | opens e htelling => exact htended.opened htelling e
  | tellsCustom next htelling =>
    exact htended.tells s.detector.hub htelling rfl rfl fun _ hbox => hbox
  | tellsWaiter htelling hrun =>
    obtain ⟨hregistry, -, hkey, -⟩ := waiterReaction_frame hrun
    exact htended.tells _ htelling hregistry hkey fun _ hbox => waiting_of_waiterReaction hrun hbox
  | closes htelling => exact htended.closed custom htelling

end Scene

/-! ## §3 Races -/

namespace Detector

def onControl (d : Detector κ υ) (f : Control υ → Control υ) : Detector κ υ :=
  d.withHub { d.hub with world := f d.hub.world }

/-- Sets the flag that tells that the detector is stopped. -/
def raiseFlag (d : Detector κ υ) : Detector κ υ :=
  d.onControl fun c => { c with cancelled := true }

def dropWatch (d : Detector κ υ) : Detector κ υ :=
  d.onControl fun c => { c with watching := false }

def clear (b : Behaviour (Observer κ) (Control υ)) (d : Detector κ υ) : Detector κ υ :=
  d.withHub (d.hub.clear b)

/-- A stop is these three, one after the other. -/
theorem stop_eq (b : Behaviour (Observer κ) (Control υ)) (d : Detector κ υ) :
    d.stop b = d.raiseFlag.dropWatch.clear b := rfl

end Detector

/-- A scene with the calls that are under way: the waits whose waiter has
subscribed, those that have found the detector stopped since, and those that
have returned; and how many stops have raised the flag, have dropped the
watch as well, and have returned. -/
structure Race (κ υ : Type) where
  scene : Scene κ υ
  entered : List (ObserverId × Nat)
  refused : List (ObserverId × Nat)
  returned : List (ObserverId × Nat)
  flagged : Nat
  unwatched : Nat
  stops : Nat

namespace Race

variable (b : Behaviour (Observer κ) (Control υ))

/-- A detector that nobody has used yet. -/
def ofPath (path : String) (user : υ) : Race κ υ := ⟨.ofPath path user, [], [], [], 0, 0, 0⟩

def withDetector (r : Race κ υ) (d : Detector κ υ) : Race κ υ :=
  { r with scene := { r.scene with detector := d } }

/-- The steps of the calls. Everything else that happens in a scene is a
step as well, a dispatch with each of its tellings among it; but nobody
looks at a wait, or gives it up, before the call that began it returns. -/
inductive Step : Race κ υ → Race κ υ → Prop where
  | enters {r} (accepts : List Event → Event → Bool) :
      Step r { r with
        scene := r.scene.enter accepts
        entered := (r.scene.registry.next, r.scene.post.next) :: r.entered }
  | passes {r w} (h : w ∈ r.entered) (hlive : r.scene.isStopped = false) :
      Step r { r with entered := r.entered.erase w, returned := w :: r.returned }
  | refuses {r w} (h : w ∈ r.entered) (hstopped : r.scene.isStopped = true) :
      Step r { r with entered := r.entered.erase w, refused := w :: r.refused }
  | retracts {r w} (h : w ∈ r.refused) :
      Step r { r with
        scene := r.scene.remove b w.1
        refused := r.refused.erase w
        returned := w :: r.returned }
  | flags {r} :
      Step r { r.withDetector r.scene.detector.raiseFlag with flagged := r.flagged + 1 }
  | unwatches {r} (h : 0 < r.flagged) :
      Step r { r.withDetector r.scene.detector.dropWatch with
        flagged := r.flagged - 1
        unwatched := r.unwatched + 1 }
  | clears {r} (h : 0 < r.unwatched) :
      Step r { r.withDetector (r.scene.detector.clear b) with
        unwatched := r.unwatched - 1
        stops := r.stops + 1 }
  | others {r s h} (hstep : Scene.Step b r.scene h s) (hstop : h ≠ .stopped)
      (hbegun : s.futures ⊆ r.scene.futures)
      (hended : ∀ w ∈ r.scene.futures, w ∉ s.futures → w ∈ r.returned) :
      Step r { r with scene := s }

/-- The steps from one race to another, in any order. -/
abbrev Steps : Race κ υ → Race κ υ → Prop := Relation.ReflTransGen (Step b)

variable {b}

/-- Nobody interrupts who begins to wait. -/
theorem steps_waitFor (r : Race κ υ) (accepts : List Event → Event → Bool) :
    Steps b r { r with
      scene := (r.scene.waitFor b accepts).1
      returned := (r.scene.waitFor b accepts).2 :: r.returned } := by
  let begun : Race κ υ := { r with
    scene := r.scene.enter accepts
    entered := (r.scene.registry.next, r.scene.post.next) :: r.entered }
  have henter : Steps b r begun := .single (.enters accepts)
  rw [Scene.waitFor_eq]
  cases hstopped : r.scene.isStopped with
  | false =>
    have hpass : Step b begun _ := .passes List.mem_cons_self hstopped
    simpa [begun] using henter.tail hpass
  | true =>
    have hrefuse : Step b begun _ := .refuses List.mem_cons_self hstopped
    have hretract := (henter.tail hrefuse).tail (.retracts List.mem_cons_self)
    simpa [begun] using hretract

/-- Nobody interrupts who stops the detector. -/
theorem steps_stop (r : Race κ υ) :
    Steps b r { r with scene := r.scene.stop b, stops := r.stops + 1 } := by
  have hflag : Steps b r _ := .single .flags
  have hunwatch := hflag.tail (.unwatches (Nat.succ_pos _))
  exact hunwatch.tail (.clears (Nat.succ_pos _))

theorem futures_poll_subset (s : Scene κ υ) (id : ObserverId) (key : Nat) :
    (s.poll b id key).futures ⊆ s.futures := by
  unfold Scene.poll
  split
  · exact List.Subset.refl _
  · exact List.filter_sublist.subset

/-- What can happen in a scene, where nobody interrupts a call, can happen in
a race. -/
theorem exists_steps_of_run {r : Race κ υ} {s : Scene κ υ} {trace : List Happening}
    (hrun : Scene.Run b r.scene trace s) (hheld : r.scene.futures ⊆ r.returned) :
    ∃ r', Steps b r r' ∧ r'.scene = s ∧ s.futures ⊆ r'.returned ∧
      r'.stops = r.stops + trace.countP Happening.stops := by
  induction hrun with
  | nil => exact ⟨r, .refl, rfl, hheld, rfl⟩
  | @snoc trace s₁ h s₂ _ hstep ih =>
    obtain ⟨r₁, hsteps, rfl, hheld₁, hstops⟩ := ih
    -- All that is neither a stop nor the beginning of a wait is one step.
    have hothers (hquiet : h.stops = false) (hbegun : s₂.futures ⊆ r₁.scene.futures) :
        ∃ r', Steps b r r' ∧ r'.scene = s₂ ∧ s₂.futures ⊆ r'.returned ∧
          r'.stops = r.stops + (trace ++ [h]).countP Happening.stops := by
      have hstop : h ≠ .stopped := by
        rintro rfl
        cases hquiet
      refine ⟨_, hsteps.tail (.others hstep hstop hbegun fun w hw _ => hheld₁ hw), rfl,
        List.Subset.trans hbegun hheld₁, ?_⟩
      simp [hstops, hquiet]
    cases hstep with
    | stop =>
      refine ⟨_, hsteps.trans (steps_stop r₁), rfl, hheld₁, ?_⟩
      simp [hstops, Happening.stops, Nat.add_assoc]
    | waitFor accepts =>
      refine ⟨_, hsteps.trans (steps_waitFor r₁ accepts), rfl, ?_, ?_⟩
      · exact List.cons_subset_cons _ hheld₁
      · simp [hstops, Happening.stops]
    | subscribe o => exact hothers rfl (List.Subset.refl _)
    | unsubscribe id => exact hothers rfl (List.Subset.refl _)
    | poll _ => exact hothers rfl (futures_poll_subset _ _ _)
    | giveUp _ => exact hothers rfl List.filter_sublist.subset
    | other _ _ _ _ => exact hothers rfl (List.Subset.refl _)
    | opens _ _ => exact hothers rfl (List.Subset.refl _)
    | tellsCustom _ _ => exact hothers rfl (List.Subset.refl _)
    | @tellsWaiter _ _ _ _ _ _ _ fired _ _ _ _ =>
      exact hothers (by cases fired <;> rfl) (List.Subset.refl _)
    | closes _ => exact hothers rfl (List.Subset.refl _)

end Race

/-! ## §4 Survivors -/

namespace Scene

variable (custom : κ → Event → Reaction κ υ) {s s' : Scene κ υ}

/-- What is true of a scene that comes next: it is in order, it is stopped
if the one before was, and registers nobody under a number of old. -/
structure Follows (s s' : Scene κ υ) : Prop where
  grows : Grows s s'
  sound : s'.Sound
  tended : s'.Tended
  stopped : s.isStopped = true → s'.isStopped = true
  registered : ∀ id, id < s.registry.next → s'.Has id → s.Has id

theorem Follows.refl (hs : s.Sound) (htended : s.Tended) : Follows s s :=
  ⟨.of_observers_subset rfl rfl (List.Subset.refl _) (List.Subset.refl _) (List.Subset.refl _), hs,
    htended, id, fun _ _ hhas => hhas⟩

theorem Follows.trans {s'' : Scene κ υ} (h : Follows s s') (h' : Follows s' s'') :
    Follows s s'' where
  grows := h.grows.trans h'.grows
  sound := h'.sound
  tended := h'.tended
  stopped hstopped := h'.stopped (h.stopped hstopped)
  registered id hid hhas :=
    h.registered id hid (h'.registered id (Nat.lt_of_lt_of_le hid h.grows.next) hhas)

theorem Step.follows {h : Happening} (hstep : Step (observerBehaviour custom) s h s')
    (hs : s.Sound) (htended : s.Tended) : Follows s s' where
  grows := hstep.grows custom
  sound := hstep.sound custom hs
  tended := hstep.tended custom hs htended
  stopped hstopped := by rw [hstep.isStopped_eq custom, hstopped, Bool.true_or]
  registered _ hid hhas := hstep.has_of_has custom hs hid hhas

theorem follows_enter (hs : s.Sound) (htended : s.Tended) (accepts : List Event → Event → Bool) :
    Follows s (s.enter accepts) where
  grows := grows_enter s accepts
  sound := (grows_enter s accepts).sound hs (agrees_enter hs accepts)
  tended := htended.enter accepts
  stopped hstopped := hstopped
  registered _ hid hhas := has_of_has_enter hs hid hhas

theorem follows_remove (hs : s.Sound) (htended : s.Tended) (id : ObserverId) :
    Follows s (s.remove (observerBehaviour custom) id) :=
  (Step.unsubscribe id).follows custom hs htended

/-- Neither the registry nor the mailboxes are touched, nor is the flag
lowered. -/
theorem follows_onControl (hs : s.Sound) (htended : s.Tended) {f : Control υ → Control υ}
    (hpost : (f s.detector.hub.world).post = s.post)
    (hflag : s.isStopped = true → (f s.detector.hub.world).cancelled = true) :
    Follows s { s with detector := s.detector.onControl f } := by
  have hgrows : Grows s { s with detector := s.detector.onControl f } :=
    .of_observers_subset rfl (congrArg Post.next hpost)
      ((congrArg Post.keys hpost) ▸ List.Subset.refl _) (List.Subset.refl _) (List.Subset.refl _)
  exact {
    grows := hgrows
    sound := hgrows.sound hs hs.agrees
    tended := htended.of_subset (fun _ hbox => hpost ▸ hbox) (List.Subset.refl _)
    stopped := hflag
    registered := fun _ _ hhas => hhas }

theorem follows_clear (hs : s.Sound) (htended : s.Tended) :
    Follows s { s with detector := s.detector.clear (observerBehaviour custom) } := by
  obtain ⟨hcancelled, hnext, hkeys⟩ :=
    releaseAll_frame custom s.registry.idle s.detector.hub.world
  have hgrows : Grows s { s with detector := s.detector.clear (observerBehaviour custom) } :=
    .of_observers_subset rfl hnext (hkeys ▸ List.Subset.refl _)
      (observers_subset rfl rfl (List.nil_subset _)) (List.Subset.refl _)
  obtain ⟨l, hl, hrounds⟩ := hs.agrees
  exact {
    grows := hgrows
    sound := hgrows.sound hs ⟨_, hl.clear (h := s.detector.hub) (observerBehaviour custom), hrounds⟩
    tended := htended.clear custom rfl rfl
    stopped := fun hstopped => hcancelled.trans hstopped
    registered := fun _ _ hhas => absurd hhas (not_has_clear (observerBehaviour custom) rfl) }

end Scene

namespace Race

variable (custom : κ → Event → Reaction κ υ) {r r' : Race κ υ}

/-- The waits whose calls have got so far that there is a waiter. -/
def begun (r : Race κ υ) : List (ObserverId × Nat) := r.entered ++ r.refused ++ r.returned

theorem mem_begun {w : ObserverId × Nat} :
    w ∈ r.begun ↔ w ∈ r.entered ∨ w ∈ r.refused ∨ w ∈ r.returned := by
  simp [begun]

/-- What every step of a race keeps. When a stop has returned, a wait whose
call has returned is out of the registry: if its call saw no flag, it had
subscribed before that was raised, so that the registry was cleared behind
it; else its call has taken the waiter back. -/
structure Kept (r : Race κ υ) : Prop where
  sound : r.scene.Sound
  tended : r.scene.Tended
  own : ∀ w ∈ r.begun, Scene.Own w.1 w.2 r.scene
  flag : 0 < r.flagged + r.unwatched + r.stops → r.scene.isStopped = true
  ended : 0 < r.stops → ∀ w ∈ r.returned, ¬ r.scene.Has w.1

theorem kept_ofPath (path : String) (user : υ) : (ofPath path user : Race κ υ).Kept where
  sound := Scene.sound_ofPath path user
  tended _ hbox := nomatch hbox
  own _ hw := nomatch hw
  flag h := absurd h (Nat.lt_irrefl 0)
  ended h := absurd h (Nat.lt_irrefl 0)

/-- What has to be looked at in a step: the waits that it adds to the lists. -/
theorem Kept.next (h : r.Kept) (hfollows : Scene.Follows r.scene r'.scene)
    (hbegun : ∀ w ∈ r'.begun, w ∈ r.begun ∨ Scene.Own w.1 w.2 r'.scene)
    (hflag : 0 < r'.flagged + r'.unwatched + r'.stops →
      0 < r.flagged + r.unwatched + r.stops ∨ r'.scene.isStopped = true)
    (hover : 0 < r'.stops → ∀ w ∈ r'.returned,
      0 < r.stops ∧ w ∈ r.returned ∨ ¬ r'.scene.Has w.1) : r'.Kept where
  sound := hfollows.sound
  tended := hfollows.tended
  own w hw := (hbegun w hw).elim (fun hold => hfollows.grows.own (h.own w hold)) id
  flag hsome := (hflag hsome).elim (fun hold => hfollows.stopped (h.flag hold)) id
  ended hstops w hw := by
    rcases hover hstops w hw with ⟨hbefore, hold⟩ | hnot
    · have hlt := (h.own w (List.mem_append_right _ hold)).id_lt
      exact fun hhas => h.ended hbefore w hold (hfollows.registered w.1 hlt hhas)
    · exact hnot

theorem Step.follows (hstep : Step (observerBehaviour custom) r r') (h : r.Kept) :
    Scene.Follows r.scene r'.scene := by
  obtain ⟨hs, htended⟩ := And.intro h.sound h.tended
  cases hstep with
  | enters accepts => exact Scene.follows_enter hs htended accepts
  | passes _ _ => exact .refl hs htended
  | refuses _ _ => exact .refl hs htended
  | @retracts w _ => exact Scene.follows_remove custom hs htended w.1
  | flags => exact Scene.follows_onControl hs htended rfl fun _ => rfl
  | unwatches _ => exact Scene.follows_onControl hs htended rfl id
  | clears _ => exact Scene.follows_clear custom hs htended
  | others hstep _ _ _ => exact hstep.follows custom hs htended

theorem Step.kept (hstep : Step (observerBehaviour custom) r r') (h : r.Kept) : r'.Kept := by
  have hfollows := hstep.follows custom h
  cases hstep with
  | enters accepts =>
    refine h.next hfollows (fun w hw => ?_) .inl fun hstops w hw => .inl ⟨hstops, hw⟩
    rcases List.mem_cons.mp hw with rfl | hw
    · exact .inr (Scene.own_enter h.sound accepts)
    · exact .inl hw
  | @passes w hw hlive =>
    refine h.next hfollows (fun v hv => .inl ?_) .inl fun hstops v hv => ?_
    · rcases mem_begun.mp hv with hin | hin | hin
      · exact mem_begun.mpr (.inl (List.mem_of_mem_erase hin))
      · exact mem_begun.mpr (.inr (.inl hin))
      · rcases List.mem_cons.mp hin with rfl | hin
        · exact mem_begun.mpr (.inl hw)
        · exact mem_begun.mpr (.inr (.inr hin))
    · -- Its call saw no flag, so that no stop has got as far as that.
      have hflag := h.flag (Nat.add_pos_right _ hstops)
      rw [hlive] at hflag
      cases hflag
  | @refuses w hw _ =>
    refine h.next hfollows (fun v hv => .inl ?_) .inl fun hstops v hv => .inl ⟨hstops, hv⟩
    rcases mem_begun.mp hv with hin | hin | hin
    · exact mem_begun.mpr (.inl (List.mem_of_mem_erase hin))
    · rcases List.mem_cons.mp hin with rfl | hin
      · exact mem_begun.mpr (.inl hw)
      · exact mem_begun.mpr (.inr (.inl hin))
    · exact mem_begun.mpr (.inr (.inr hin))
  | @retracts w hw =>
    refine h.next hfollows (fun v hv => .inl ?_) .inl fun hstops v hv => ?_
    · rcases mem_begun.mp hv with hin | hin | hin
      · exact mem_begun.mpr (.inl hin)
      · exact mem_begun.mpr (.inr (.inl (List.mem_of_mem_erase hin)))
      · rcases List.mem_cons.mp hin with rfl | hin
        · exact mem_begun.mpr (.inr (.inl hw))
        · exact mem_begun.mpr (.inr (.inr hin))
    · rcases List.mem_cons.mp hv with rfl | hin
      · obtain ⟨l, hl, -⟩ := h.sound.agrees
        exact .inr (Scene.not_has_remove custom hl v.1)
      · exact .inl ⟨hstops, hin⟩
  | flags =>
    exact h.next hfollows (fun _ hv => .inl hv) (fun _ => .inr rfl)
      fun hstops v hv => .inl ⟨hstops, hv⟩
  | unwatches hsome =>
    refine h.next hfollows (fun _ hv => .inl hv) (fun _ => .inl ?_)
      fun hstops v hv => .inl ⟨hstops, hv⟩
    omega
  | clears hsome =>
    refine h.next hfollows (fun _ hv => .inl hv) (fun _ => .inl ?_) fun _ v _ => .inr ?_
    · omega
    · exact Scene.not_has_clear (observerBehaviour custom) rfl
  | others _ _ _ _ =>
    exact h.next hfollows (fun _ hv => .inl hv) .inl fun hstops v hv => .inl ⟨hstops, hv⟩

theorem Steps.kept (hsteps : Steps (observerBehaviour custom) r r') (h : r.Kept) :
    r'.Kept ∧ Scene.Follows r.scene r'.scene := by
  induction hsteps with
  | refl => exact ⟨h, .refl h.sound h.tended⟩
  | tail _ hstep ih =>
    obtain ⟨hkept, hfollows⟩ := ih
    exact ⟨hstep.kept custom hkept, hfollows.trans (hstep.follows custom hkept)⟩

end Race

/-- A wait that can come to nothing but what it has come to: its waiter is
not registered, nobody can deliver to its mailbox any more, and a look finds
the event that was delivered, or else that the detector was stopped. -/
structure Scene.Over (s : Scene κ υ) (id : ObserverId) (key : Nat) : Prop where
  unregistered : ¬ s.Has id
  unsent : key ∉ mailboxes s.observers
  complete : (∃ e, s.post.box? key = some (.delivered e) ∧
      (s.detector.pollWait key).2 = some (.ok e)) ∨
    (s.detector.pollWait key).2 = some (.error .stopped)

/-- Where no observer has its mailbox a wait is complete. -/
theorem Scene.Tended.complete {s : Scene κ υ} (h : s.Tended) {key : Nat}
    (hkey : key ∉ mailboxes s.observers) :
    (∃ e, s.post.box? key = some (.delivered e) ∧ (s.detector.pollWait key).2 = some (.ok e)) ∨
      (s.detector.pollWait key).2 = some (.error .stopped) := by
  cases hbox : s.post.box? key with
  | none =>
    have hlookup : s.detector.hub.world.post.boxes.lookup key = none := hbox
    refine .inr ?_
    unfold Detector.pollWait Post.poll
    rw [hlookup]
  | some box =>
    rw [Scene.pollWait_eq hbox]
    cases box with
    | waiting => exact absurd (h key hbox) hkey
    | delivered e => exact .inl ⟨e, rfl, rfl⟩
    | closed => exact .inr rfl

namespace Race

/-- **No wait survives a stop.** When a stop has returned and no dispatch is
running, every wait whose call has returned is over, and stays so whatever
comes next: wherever among the steps of that stop, of others and of a
dispatch it began. -/
theorem stop_ends_waits (custom : κ → Event → Reaction κ υ) (path : String) (user : υ)
    {r : Race κ υ} (hreached : Steps (observerBehaviour custom) (ofPath path user) r)
    (hstops : 0 < r.stops) (htelling : r.scene.telling = none)
    {id : ObserverId} {key : Nat} (hreturned : (id, key) ∈ r.returned)
    {r' : Race κ υ} (hlater : Steps (observerBehaviour custom) r r') : r'.scene.Over id key := by
  obtain ⟨hkept, -⟩ := hreached.kept custom (kept_ofPath path user)
  have hown := hkept.own _ (List.mem_append_right _ hreturned)
  have hnot : ¬ r.scene.Has id := hkept.ended hstops _ hreturned
  -- With no dispatch, whoever had its mailbox would be idle.
  have hunsent : key ∉ mailboxes r.scene.observers := by
    intro hin
    obtain ⟨⟨other, o⟩, ho, hkey⟩ := mem_mailboxes.mp hin
    obtain rfl : other = id := hown.observers _ ho hkey
    have hidle : (other, o) ∈ r.scene.registry.idle := by
      simpa [Scene.observers, Scene.told, Scene.untold, htelling] using ho
    exact hnot (.inl (List.mem_map_of_mem hidle))
  obtain ⟨hkept', hfollows⟩ := hlater.kept custom hkept
  have hunsent' : key ∉ mailboxes r'.scene.observers := by
    intro hin
    obtain ⟨o, ho, hkey⟩ := mem_mailboxes.mp hin
    rcases hfollows.grows.observers o ho key hkey with ⟨o₀, ho₀, -, hkey₀⟩ | ⟨hnew, -⟩
    · exact hunsent (mem_mailboxes.mpr ⟨o₀, ho₀, hkey₀⟩)
    · exact absurd hown.key_lt (Nat.not_lt.mpr hnew)
  exact {
    unregistered := fun hhas => hnot (hfollows.registered id hown.id_lt hhas)
    unsent := hunsent'
    complete := hkept'.tended.complete hunsent' }

end Race

namespace Race

/-- A stop falls into a dispatch, and a wait into the stop. The first wait
began before; its waiter is in the hands of the dispatch when the registry
is cleared, and accepts the event behind that. The second one subscribes
when the flag is up already, is cleared away, and sees the flag then. -/
theorem overlapping_stop_ends_waits :
    let b : Behaviour (Observer Empty) (Control Unit) := observerBehaviour nofun
    let e := classify (.object [])
    ∃ r : Race Empty Unit, Steps b (ofPath "t.log" ()) r ∧ 0 < r.stops ∧
      r.scene.telling = none ∧ r.returned = [(1, 1), (0, 0)] ∧
      r.scene.Over 0 0 ∧ (r.scene.detector.pollWait 0).2 = some (.ok e) ∧
      r.scene.Over 1 1 ∧ (r.scene.detector.pollWait 1).2 = some (.error .stopped) := by
  intro b e
  have hfirst : Steps b (ofPath "t.log" ()) _ := .single (.enters fun _ _ => true)
  have hbegun := hfirst.tail (.passes List.mem_cons_self rfl)
  have hopened := hbegun.tail (.others (.opens e rfl) nofun (List.Subset.refl _) nofun)
  have hsecond := (hopened.tail .flags).tail (.enters fun _ _ => true)
  have hstopped := (hsecond.tail (.unwatches (Nat.succ_pos _))).tail (.clears (Nat.succ_pos _))
  have hrefused := hstopped.tail (.refuses List.mem_cons_self rfl)
  have hreturned := hrefused.tail (.retracts List.mem_cons_self)
  have htold := hreturned.tail
    (.others (.tellsWaiter rfl rfl) nofun (List.Subset.refl _) fun w hw hnot => absurd hw hnot)
  have hclosed := htold.tail
    (.others (.closes rfl) nofun (List.Subset.refl _) fun w hw hnot => absurd hw hnot)
  refine ⟨_, hclosed, Nat.succ_pos _, rfl, rfl, ?_, rfl, ?_, rfl⟩
  · exact stop_ends_waits nofun "t.log" () hclosed (Nat.succ_pos _) rfl
      (List.mem_cons_of_mem _ List.mem_cons_self) .refl
  · exact stop_ends_waits nofun "t.log" () hclosed (Nat.succ_pos _) rfl List.mem_cons_self .refl

end Race

end Runwatch.Telemetry
