/-
Runwatch.Proofs.Telemetry.Waiting — what a wait comes to.

A waiter is asked about the events that are dispatched after its beginning
and before a stop, one after the other, up to the first that it accepts
(`listen`). Where it stands in the registry, what lies in its mailbox and
what it was asked so far go together (`Fate`). A step of somebody else
leaves all of it alone (`Aside`); the others are few, and there is a lemma
for each.

  §1 Listening — what is asked and found of the events that are heard.
  §2 Others    — what the steps of others leave alone.
  §3 Fates     — what each step makes of a wait (`Step.fate`).
  §4 Runs      — what a wait comes to, whatever happens (`Run.awaits`).
-/
import Runwatch.Proofs.Telemetry.Sound

namespace Runwatch.Telemetry

variable {κ υ : Type}

/-! ## §1 Listening -/

/-- Asks about events one after the other, up to the first that is
accepted: what was asked, and that one. -/
def listen (accepts : List Event → Event → Bool) :
    List Event → List Event → List Event × Option Event
  | asked, [] => (asked, none)
  | asked, e :: rest =>
    if accepts asked e then (asked ++ [e], some e) else listen accepts (asked ++ [e]) rest

theorem listen_append (accepts : List Event → Event → Bool) (asked events later : List Event) :
    listen accepts asked (events ++ later) =
      match (listen accepts asked events).2 with
      | some _ => listen accepts asked events
      | none => listen accepts (listen accepts asked events).1 later := by
  induction events generalizing asked with
  | nil => rfl
  | cons e rest ih =>
    rw [List.cons_append, listen, listen]
    split
    · rfl
    · exact ih _

theorem listen_isPrefix (accepts : List Event → Event → Bool) (asked events : List Event) :
    asked <+: (listen accepts asked events).1 := by
  induction events generalizing asked with
  | nil => exact List.prefix_refl _
  | cons e rest ih =>
    rw [listen]
    split
    · exact List.prefix_append _ _
    · exact (List.prefix_append _ _).trans (ih _)

/-- More events do not change what was asked before. -/
theorem listen_append_isPrefix (accepts : List Event → Event → Bool)
    (asked events later : List Event) :
    (listen accepts asked events).1 <+: (listen accepts asked (events ++ later)).1 := by
  rw [listen_append]
  split
  · exact List.prefix_refl _
  · exact listen_isPrefix _ _ _

/-- Behind the first that is accepted nothing is asked. -/
theorem listen_of_some {accepts : List Event → Event → Bool} {asked events : List Event}
    (h : (listen accepts asked events).2.isSome = true) (later : List Event) :
    listen accepts asked (events ++ later) = listen accepts asked events := by
  obtain ⟨e, he⟩ := Option.isSome_iff_exists.mp h
  rw [listen_append, he]

theorem listen_of_none {accepts : List Event → Event → Bool} {asked events : List Event}
    (h : (listen accepts asked events).2.isSome = false) (e : Event) :
    listen accepts asked (events ++ [e]) =
      ((listen accepts asked events).1 ++ [e],
        if accepts (listen accepts asked events).1 e then some e else none) := by
  have hnone : (listen accepts asked events).2 = none := by simpa using h
  rw [listen_append, hnone]
  simp only [listen]
  split <;> rfl

/-- What is found is the first that is accepted, and what was asked is all
that was heard up to there. -/
theorem listen_eq (accepts : List Event → Event → Bool) (asked events : List Event) :
    (∃ before e after, events = before ++ e :: after ∧
      listen accepts asked events = (asked ++ before ++ [e], some e) ∧
      accepts (asked ++ before) e = true ∧
      ∀ x y z, before = x ++ y :: z → accepts (asked ++ x) y = false) ∨
    (listen accepts asked events = (asked ++ events, none) ∧
      ∀ x y z, events = x ++ y :: z → accepts (asked ++ x) y = false) := by
  induction events generalizing asked with
  | nil => exact .inr ⟨by simp [listen], fun x y z h => by simp at h⟩
  | cons e rest ih =>
    rw [listen]
    cases haccepts : accepts asked e with
    | true =>
      exact .inl ⟨[], e, rest, rfl, by simp, by simpa using haccepts, fun x y z h => by simp at h⟩
    | false =>
      -- What is refused first, and what is refused behind it.
      have hrefused : ∀ {later : List Event},
          (∀ x y z, later = x ++ y :: z → accepts (asked ++ [e] ++ x) y = false) →
          ∀ x y z, e :: later = x ++ y :: z → accepts (asked ++ x) y = false := by
        intro later hlater x y z h
        cases x with
        | nil =>
          obtain ⟨rfl, -⟩ := List.cons.inj h
          simpa using haccepts
        | cons first x =>
          obtain ⟨rfl, hrest⟩ := List.cons.inj h
          simpa using hlater x y z hrest
      rcases ih (asked ++ [e]) with
        ⟨before, e', after, rfl, hlisten, haccepted, hbefore⟩ | ⟨hlisten, hall⟩
      · exact .inl ⟨e :: before, e', after, rfl, by simpa using hlisten, by simpa using haccepted,
          hrefused hbefore⟩
      · exact .inr ⟨by simpa using hlisten, hrefused hall⟩

/-! ## §2 Others -/

namespace Scene

/-- What concerns a wait is as it was. -/
structure Aside (id : ObserverId) (key : Nat) (s s' : Scene κ υ) : Prop where
  stopped : s'.isStopped = s.isStopped
  kept : (id, key) ∈ s'.futures ↔ (id, key) ∈ s.futures
  event : s'.event? = s.event?
  idle : ∀ o, (id, o) ∈ s'.registry.idle ↔ (id, o) ∈ s.registry.idle
  told : ∀ o, (id, o) ∈ s'.told ↔ (id, o) ∈ s.told
  untold : ∀ o, (id, o) ∈ s'.untold ↔ (id, o) ∈ s.untold
  detached : id ∈ s'.registry.detached ↔ id ∈ s.registry.detached
  box : s'.post.box? key = s.post.box? key

variable {s s' s'' : Scene κ υ} {id : ObserverId} {key : Nat}

theorem Aside.trans (h : Aside id key s s') (h' : Aside id key s' s'') : Aside id key s s'' where
  stopped := h'.stopped.trans h.stopped
  kept := h'.kept.trans h.kept
  event := h'.event.trans h.event
  idle o := (h'.idle o).trans (h.idle o)
  told o := (h'.told o).trans (h.told o)
  untold o := (h'.untold o).trans (h.untold o)
  detached := h'.detached.trans h.detached
  box := h'.box.trans h.box

theorem aside_subscribe (hown : Own id key s) (o : κ) :
    Aside id key s { s with detector := (s.detector.subscribe (.custom o)).1 } where
  stopped := rfl
  kept := .rfl
  event := rfl
  idle o' := by
    have hne : id ≠ s.detector.hub.registry.next := Nat.ne_of_lt hown.id_lt
    simp [registry, Detector.subscribe, Hub.subscribe, Registry.subscribe, hne]
  told _ := .rfl
  untold _ := .rfl
  detached := .rfl
  box := rfl

variable (custom : κ → Event → Reaction κ υ)

theorem aside_remove (hown : Own id key s) {other : ObserverId} (hne : other ≠ id) :
    Aside id key s (s.remove (observerBehaviour custom) other) := by
  have hremoves := removes_remove custom s other
  exact {
    stopped := hremoves.cancelled
    kept := .rfl
    event := rfl
    idle := fun o => ⟨fun ho => hremoves.idle ho, fun ho => hremoves.stays _ ho hne.symm⟩
    told := fun _ => .rfl
    untold := fun _ => .rfl
    detached := hremoves.detached id hne.symm
    box := hremoves.box key fun o ho hkey heq =>
      hne (heq.symm.trans (hown.observers o (List.mem_append_right _ ho) hkey)) }

theorem aside_withPost {p : Post} (hbox : p.box? key = s.post.box? key) :
    Aside id key s (s.withPost p) :=
  ⟨rfl, .rfl, rfl, fun _ => .rfl, fun _ => .rfl, fun _ => .rfl, .rfl, hbox⟩

theorem aside_forget {future : ObserverId × Nat} (hne : (id, key) ≠ future) :
    Aside id key s (s.forget future) where
  stopped := rfl
  kept := by simp [forget, hne]
  event := rfl
  idle _ := .rfl
  told _ := .rfl
  untold _ := .rfl
  detached := .rfl
  box := rfl

theorem aside_enter (hown : Own id key s) (accepts : List Event → Event → Bool) :
    Aside id key s (s.enter accepts) where
  stopped := rfl
  kept := by
    have hne : (id, key) ≠ (s.registry.next, s.post.next) := fun heq =>
      Nat.ne_of_lt hown.id_lt (Prod.mk.inj heq).1
    simp [enter, hne]
  event := rfl
  idle o := by
    have hne : id ≠ s.detector.hub.registry.next := Nat.ne_of_lt hown.id_lt
    simp [registry, enter, withPost, Detector.withHub, Detector.subscribe, Hub.subscribe,
      Registry.subscribe, hne]
  told _ := .rfl
  untold _ := .rfl
  detached := .rfl
  box := Post.box?_fresh_of_ne (Nat.ne_of_lt hown.key_lt)

theorem aside_endWait (hown : Own id key s) {other : ObserverId} {box : Nat} (hid : other ≠ id)
    (hkey : box ≠ key) : Aside id key s (s.endWait (observerBehaviour custom) other box) := by
  have hremoved := aside_remove custom hown hid
  rw [endWait_eq]
  generalize s.remove (observerBehaviour custom) other = removed at hremoved ⊢
  have habandoned : Aside id key removed (removed.withPost (removed.post.abandon box)) :=
    aside_withPost (Post.box?_abandon_of_ne hkey.symm)
  exact (hremoved.trans habandoned).trans (aside_forget fun heq => hid (Prod.mk.inj heq).1.symm)

theorem aside_poll (hown : Own id key s) {other : ObserverId} {box : Nat} (hid : other ≠ id)
    (hkey : box ≠ key) : Aside id key s (s.poll (observerBehaviour custom) other box) := by
  have hlooked : Aside id key s (s.withPost (s.post.poll box).1) :=
    aside_withPost (Post.box?_poll_of_ne hkey.symm)
  rw [poll_eq]
  simp only
  split
  · exact hlooked
  · exact hlooked.trans (aside_endWait custom ((grows_look s box).own hown) hid hkey)

theorem aside_tells {e : Event} {told untold : List (ObserverId × Observer κ)} {other : ObserverId}
    {o next : Observer κ} {hub : Hub (Observer κ) (Control υ)}
    (h : s.telling = some ⟨e, told, (other, o) :: untold⟩) (hne : other ≠ id)
    (hregistry : hub.registry = s.registry) (hstopped : hub.world.cancelled = s.isStopped)
    (hbox : hub.world.post.box? key = s.post.box? key) :
    Aside id key s
      { s with
        detector := s.detector.withHub hub
        telling := some ⟨e, told ++ [(other, next)], untold⟩ } where
  stopped := hstopped
  kept := .rfl
  event := by simp [event?, h]
  idle o' := (congrArg (fun r => (id, o') ∈ Registry.idle r) hregistry).to_iff
  told o' := by simp [Scene.told, h, hne.symm]
  untold o' := by simp [Scene.untold, h, hne.symm]
  detached := (congrArg (fun r => id ∈ Registry.detached r) hregistry).to_iff
  box := hbox

end Scene

/-! ## §3 Fates -/

/-- A waiter that has heard these events. -/
def Observer.listening (key : Nat) (accepts : List Event → Event → Bool) (heard : List Event) :
    Observer κ :=
  .waiter key accepts (listen accepts [] heard).1 (listen accepts [] heard).2.isSome

/-- What lies in its box; `empty` if it has found nothing. -/
def Box.listening (empty : Box) (accepts : List Event → Event → Bool) (heard : List Event) : Box :=
  match (listen accepts [] heard).2 with
  | some e => .delivered e
  | none => empty

theorem Box.shut_listening (accepts : List Event → Event → Bool) (heard : List Event) :
    (Box.listening .waiting accepts heard).shut = .listening .closed accepts heard := by
  unfold listening
  split <;> rfl

theorem Box.listening_congr (empty : Box) {accepts : List Event → Event → Bool}
    {heard heard' : List Event} (h : listen accepts [] heard = listen accepts [] heard') :
    Box.listening empty accepts heard = .listening empty accepts heard' := by
  rw [listening, listening, h]

theorem Observer.listening_congr (key : Nat) {accepts : List Event → Event → Bool}
    {heard heard' : List Event} (h : listen accepts [] heard = listen accepts [] heard') :
    (Observer.listening key accepts heard : Observer κ) = .listening key accepts heard' := by
  rw [listening, listening, h]

/-- A waiter that is told of one more event. Its box, if it has only been told
so far, holds what it has found. -/
theorem Observer.listening_hears {b : Behaviour (Observer κ) (Control υ)}
    {nested : Event → Hub (Observer κ) (Control υ) → Option (Hub (Observer κ) (Control υ))}
    {key : Nat} {accepts : List Event → Event → Bool} {heard : List Event} {e : Event}
    {h h' : Hub (Observer κ) (Control υ)} {next : Observer κ}
    (hrun : Hub.runScript b nested (waiterReaction key accepts (listen accepts [] heard).1
      (listen accepts [] heard).2.isSome e) h = some (h', next)) :
    next = .listening key accepts (heard ++ [e]) ∧
      (h.world.post.box? key = some (.listening .waiting accepts heard) →
        h'.world.post.box? key = some (.listening .waiting accepts (heard ++ [e]))) := by
  -- As long as it has found nothing, its box is empty.
  have hempty (hfired : (listen accepts [] heard).2.isSome = false)
      (hbox : h.world.post.box? key = some (.listening .waiting accepts heard)) :
      h.world.post.box? key = some .waiting := by
    have hnone : (listen accepts [] heard).2 = none := by simpa using hfired
    rw [hbox, Box.listening, hnone]
  rcases Scene.waiterReaction_cases hrun with
    ⟨hfired, rfl, rfl⟩ | ⟨hfired, haccepts, rfl, rfl⟩ | ⟨hfired, haccepts, rfl, rfl⟩
  · have hlisten := listen_of_some hfired [e]
    rw [Observer.listening, Box.listening, Box.listening, hlisten, hfired]
    exact ⟨rfl, id⟩
  · have hlisten := listen_of_none hfired e
    rw [if_pos haccepts] at hlisten
    refine ⟨by rw [Observer.listening, hlisten, Option.isSome_some], fun hbox => ?_⟩
    rw [Box.listening, hlisten]
    exact Post.box?_deliver (hempty hfired hbox) e
  · have hlisten := listen_of_none hfired e
    rw [if_neg (by simp [haccepts])] at hlisten
    refine ⟨by rw [Observer.listening, hlisten, Option.isSome_none], fun hbox => ?_⟩
    rw [Box.listening, hlisten]
    exact hempty hfired hbox

/-- The event that observers hear of: nobody does behind a stop. -/
def Happening.heard (stopped : Bool) : Happening → List Event
  | .began e => if stopped then [] else [e]
  | _ => []

/-- The event that the test of one waiter is asked about. -/
def Happening.asks (key : Nat) : Happening → List Event
  | .asked k e => if k = key then [e] else []
  | _ => []

def Happening.stops : Happening → Bool
  | .stopped => true
  | _ => false

namespace Scene

/-- Where the waiter of a wait stands: among the idle, among those that the
running dispatch has still to tell or has told, or nowhere any more. It has
heard `heard` and was asked about `asked`. A waiter in the hands of a
dispatch is removed only when that is over, so it is told even then. -/
inductive Fate (id : ObserverId) (key : Nat) (accepts : List Event → Event → Bool)
    (s : Scene κ υ) (heard asked : List Event) : Prop where
  | idle (hin : (id, .listening key accepts heard) ∈ s.registry.idle) (hlive : s.isStopped = false)
      (hkept : (id, key) ∈ s.futures) (hasked : asked = (listen accepts [] heard).1)
      (hbox : s.post.box? key = some (.listening .waiting accepts heard))
  | untold {before : List Event} {e : Event} (hevent : s.event? = some e)
      (hheard : heard = before ++ [e])
      (hin : (id, .listening key accepts before) ∈ s.untold)
      (hdetached : id ∈ s.registry.detached ↔ s.isStopped = true ∨ (id, key) ∉ s.futures)
      (hasked : asked = (listen accepts [] before).1)
      (hbox : (id, key) ∈ s.futures → s.post.box? key = some (.listening .waiting accepts before))
  | told (hin : (id, .listening key accepts heard) ∈ s.told)
      (hdetached : id ∈ s.registry.detached ↔ s.isStopped = true ∨ (id, key) ∉ s.futures)
      (hasked : asked = (listen accepts [] heard).1)
      (hbox : (id, key) ∈ s.futures → s.post.box? key = some (.listening .waiting accepts heard))
  | gone (hnot : ∀ o, (id, o) ∉ s.observers) (hover : s.isStopped = true ∨ (id, key) ∉ s.futures)
      (hasked : asked <+: (listen accepts [] heard).1)
      (hkept : (id, key) ∈ s.futures → asked = (listen accepts [] heard).1 ∧
        s.post.box? key = some (.listening .closed accepts heard))

variable {s s' : Scene κ υ} {id : ObserverId} {key : Nat} {accepts : List Event → Event → Bool}
  {heard asked : List Event}

theorem Fate.aside (h : Fate id key accepts s heard asked) (haside : Aside id key s s') :
    Fate id key accepts s' heard asked := by
  cases h with
  | idle hin hlive hkept hasked hbox =>
    exact .idle ((haside.idle _).mpr hin) (haside.stopped.trans hlive) (haside.kept.mpr hkept)
      hasked (haside.box.trans hbox)
  | untold hevent hheard hin hdetached hasked hbox =>
    refine .untold (haside.event.trans hevent) hheard ((haside.untold _).mpr hin) ?_ hasked
      fun hkept => haside.box.trans (hbox (haside.kept.mp hkept))
    rw [haside.detached, hdetached, haside.stopped, haside.kept]
  | told hin hdetached hasked hbox =>
    refine .told ((haside.told _).mpr hin) ?_ hasked
      fun hkept => haside.box.trans (hbox (haside.kept.mp hkept))
    rw [haside.detached, hdetached, haside.stopped, haside.kept]
  | gone hnot hover hasked hkept =>
    refine .gone (fun o ho => hnot o ?_) ?_ hasked fun h => ?_
    · simp only [observers, List.mem_append, haside.told, haside.untold, haside.idle] at ho ⊢
      exact ho
    · rwa [haside.stopped, haside.kept]
    · rw [haside.box]
      exact hkept (haside.kept.mp h)

variable (custom : κ → Event → Reaction κ υ)

/-- No mailbox but its own has its number. -/
theorem Own.not_mem_mailboxes (hown : Own id key s) {others : List (ObserverId × Observer κ)}
    (hothers : others ⊆ s.observers) (hnot : ∀ o, (id, o) ∉ others) : key ∉ mailboxes others := by
  intro hin
  obtain ⟨⟨other, o⟩, ho, hkey⟩ := mem_mailboxes.mp hin
  have heq : other = id := hown.observers _ (hothers ho) hkey
  exact hnot o (heq ▸ ho)

theorem idle_subset_observers (s : Scene κ υ) : s.registry.idle ⊆ s.observers :=
  List.subset_append_right _ _

theorem told_subset_observers (s : Scene κ υ) : s.told ⊆ s.observers :=
  List.Subset.trans (List.subset_append_left _ _) (List.subset_append_left _ _)

theorem untold_subset_observers (s : Scene κ υ) : s.untold ⊆ s.observers :=
  List.Subset.trans (List.subset_append_right _ _) (List.subset_append_left _ _)

theorem Fate.stop (h : Fate id key accepts s heard asked) (hs : Sound s) (hown : Own id key s) :
    Fate id key accepts (s.stop (observerBehaviour custom)) heard asked := by
  have hstopped : (s.stop (observerBehaviour custom)).isStopped = true :=
    (releaseAll_frame custom s.registry.idle s.detector.hub.world.cancel).1
  have hbox : (s.stop (observerBehaviour custom)).post.box? key =
      if key ∈ mailboxes s.registry.idle then (s.post.box? key).map Box.shut
      else s.post.box? key := box?_releaseAll custom s.registry.idle s.detector.hub.world.cancel key
  have hobservers : (s.stop (observerBehaviour custom)).observers = s.told ++ s.untold :=
    List.append_nil _
  -- Only an idle waiter has its mailbox closed at once.
  have hkeeps : (∀ o, (id, o) ∉ s.registry.idle) →
      (s.stop (observerBehaviour custom)).post.box? key = s.post.box? key := fun hnot =>
    hbox.trans (if_neg (hown.not_mem_mailboxes (idle_subset_observers s) hnot))
  cases h with
  | idle hin _ _ hasked hboxed =>
    refine .gone (fun o ho => ?_) (.inl hstopped) (hasked ▸ List.prefix_refl _)
      fun _ => ⟨hasked, ?_⟩
    · exact hs.not_mem_idle (hobservers ▸ ho) _ hin
    · rw [hbox, if_pos (mem_mailboxes.mpr ⟨_, hin, rfl⟩), hboxed, Option.map_some,
        Box.shut_listening]
  | untold hevent hheard hin _ hasked hboxed =>
    have hbatch := List.mem_append_right s.told hin
    refine .untold hevent hheard hin ?_ hasked fun hkept => ?_
    · exact iff_of_true (hs.mem_inFlight hbatch) (.inl hstopped)
    · exact (hkeeps (hs.not_mem_idle hbatch)).trans (hboxed hkept)
  | told hin _ hasked hboxed =>
    have hbatch := List.mem_append_left s.untold hin
    refine .told hin ?_ hasked fun hkept => ?_
    · exact iff_of_true (hs.mem_inFlight hbatch) (.inl hstopped)
    · exact (hkeeps (hs.not_mem_idle hbatch)).trans (hboxed hkept)
  | gone hnot _ hasked hkept =>
    refine .gone (fun o ho => ?_) (.inl hstopped) hasked fun hin => ⟨(hkept hin).1, ?_⟩
    · exact hnot o (List.mem_append_left _ (hobservers ▸ ho))
    · exact (hkeeps fun o ho => hnot o (idle_subset_observers s ho)).trans (hkept hin).2

/-- A wait that is over or given up is heard no more of, whatever lies in
its mailbox. -/
theorem Fate.endWait (h : Fate id key accepts s heard asked) (hs : Sound s) (p : Post) :
    Fate id key accepts ((s.withPost p).endWait (observerBehaviour custom) id key) heard asked := by
  obtain ⟨l, hl, -⟩ := hs.agrees
  have hnot := not_has_remove custom (s := s.withPost p) hl id
  have hremoves := removes_remove custom (s.withPost p) id
  have hover : (id, key) ∉ ((s.withPost p).endWait (observerBehaviour custom) id key).futures := by
    simp [endWait_eq, forget]
  have hidle : ∀ o, (id, o) ∉
      ((s.withPost p).endWait (observerBehaviour custom) id key).registry.idle := fun o ho =>
    hnot (.inl (List.mem_map_of_mem ho))
  have hdetached : id ∈ s.registry.inFlight →
      id ∈ ((s.withPost p).endWait (observerBehaviour custom) id key).registry.detached :=
    fun hfly => by_contra fun hdet => hnot (.inr ⟨hremoves.inFlight ▸ hfly, hdet⟩)
  cases h with
  | idle hin _ _ hasked _ =>
    refine .gone (fun o ho => ?_) (.inr hover) (hasked ▸ List.prefix_refl _)
      fun hin => absurd hin hover
    rcases List.mem_append.mp ho with hbatch | ho
    · exact hs.not_mem_idle hbatch _ hin
    · exact hidle o ho
  | untold hevent hheard hin _ hasked _ =>
    refine .untold hevent hheard hin ?_ hasked fun hin => absurd hin hover
    exact iff_of_true (hdetached (hs.mem_inFlight (List.mem_append_right _ hin))) (.inr hover)
  | told hin _ hasked _ =>
    refine .told hin ?_ hasked fun hin => absurd hin hover
    exact iff_of_true (hdetached (hs.mem_inFlight (List.mem_append_left _ hin))) (.inr hover)
  | gone hnot _ hasked _ =>
    refine .gone (fun o ho => ?_) (.inr hover) hasked fun hin => absurd hin hover
    rcases List.mem_append.mp ho with hbatch | ho
    · exact hnot o (List.mem_append_left _ hbatch)
    · exact hidle o ho

theorem Fate.poll (h : Fate id key accepts s heard asked) (hs : Sound s) :
    Fate id key accepts (s.poll (observerBehaviour custom) id key) heard asked := by
  rw [poll_eq]
  simp only
  split
  · next hpending =>
    rw [Post.poll_pending hpending]
    exact h
  · exact h.endWait custom hs _

theorem Fate.opened (h : Fate id key accepts s heard asked) (hs : Sound s)
    (htelling : s.telling = none) (e : Event) :
    Fate id key accepts (s.opened e) (heard ++ if s.isStopped then [] else [e]) asked := by
  have htold : s.told = [] := by simp [Scene.told, htelling]
  have huntold : s.untold = [] := by simp [Scene.untold, htelling]
  cases h with
  | idle hin hlive hkept hasked hboxed =>
    refine .untold rfl (by simp [hlive]) hin ?_ hasked fun _ => hboxed
    exact iff_of_false (hs.not_mem_detached hin) fun hover =>
      hover.elim (fun hstopped => Bool.false_ne_true (hlive.symm.trans hstopped)) (absurd hkept)
  | untold _ _ hin _ _ _ => simp [huntold] at hin
  | told hin _ _ _ => simp [htold] at hin
  | gone hnot hover hasked hkept =>
    have hnot' : ∀ o, (id, o) ∉ (s.opened e).observers := fun o ho => by
      have hidle : (id, o) ∈ s.registry.idle := by
        simpa [observers, Scene.told, Scene.untold, registry, Scene.opened, Hub.takeBatch,
          Detector.withHub] using ho
      exact hnot o (idle_subset_observers s hidle)
    cases hstopped : s.isStopped with
    | true =>
      rw [if_pos rfl, List.append_nil]
      exact .gone hnot' hover hasked hkept
    | false =>
      -- Nobody holds it any more, else it would not be gone.
      have hdropped : (id, key) ∉ s.futures := hover.resolve_left (by simp [hstopped])
      exact .gone hnot' hover (hasked.trans (listen_append_isPrefix _ _ _ _))
        fun h => absurd h hdropped

/-- Its turn: it is asked, unless it has found something, and delivers what
it accepts. -/
theorem Fate.told_next (h : Fate id key accepts s heard asked) (hs : Sound s) {e : Event}
    {told untold : List (ObserverId × Observer κ)} {k : Nat} {a : List Event → Event → Bool}
    {before : List Event} {fired : Bool} {next : Observer κ} {hub : Hub (Observer κ) (Control υ)}
    {nested : Event → Hub (Observer κ) (Control υ) → Option (Hub (Observer κ) (Control υ))}
    (htelling : s.telling = some ⟨e, told, (id, .waiter k a before fired) :: untold⟩)
    (hrun : Hub.runScript (observerBehaviour custom) nested (waiterReaction k a before fired e)
      s.detector.hub = some (hub, next)) :
    k = key ∧ Fate id key accepts
      { s with
        detector := s.detector.withHub hub
        telling := some ⟨e, told ++ [(id, next)], untold⟩ }
      heard (asked ++ if fired then [] else [e]) := by
  have hfirst : (id, .waiter k a before fired) ∈ s.untold := by simp [Scene.untold, htelling]
  obtain ⟨hregistry, hcancelled, -⟩ := waiterReaction_frame hrun
  cases h with
  | idle hin _ _ _ _ => exact absurd hin (hs.not_mem_idle (List.mem_append_right _ hfirst) _)
  | told hin _ _ _ => exact absurd hfirst (hs.not_mem_untold hin _)
  | gone hnot _ _ _ => exact absurd (untold_subset_observers s hfirst) (hnot _)
  | @untold before' e' hevent hheard hin hdetached hasked hboxed =>
    obtain rfl : e = e' := by simpa [event?, htelling] using hevent
    have hsame := hs.unique (untold_subset_observers s hfirst) (untold_subset_observers s hin)
    obtain ⟨rfl, rfl, rfl, rfl⟩ := Observer.waiter.inj hsame
    have hdetached' : id ∈ hub.registry.detached ↔
        hub.world.cancelled = true ∨ (id, k) ∉ s.futures := by
      rw [hregistry, hcancelled]
      exact hdetached
    subst hheard hasked
    obtain ⟨rfl, hheard⟩ := Observer.listening_hears hrun
    refine ⟨rfl, .told (by simp [Scene.told]) hdetached' ?_ fun hkept => hheard (hboxed hkept)⟩
    cases hfired : (listen a [] before').2.isSome with
    | true => rw [if_pos rfl, List.append_nil, listen_of_some hfired]
    | false => rw [if_neg Bool.false_ne_true, listen_of_none hfired]

/-- A dispatch ends: its waiter is idle again, or gone if it was removed
meanwhile. -/
theorem Fate.closed (h : Fate id key accepts s heard asked) (hs : Sound s) (hown : Own id key s)
    {e : Event} {told : List (ObserverId × Observer κ)}
    (htelling : s.telling = some ⟨e, told, []⟩) :
    Fate id key accepts (s.closed (observerBehaviour custom) told) heard asked := by
  obtain ⟨l, hl, -⟩ := hs.agrees
  have htold : s.told = told := by simp [Scene.told, htelling]
  have huntold : s.untold = [] := by simp [Scene.untold, htelling]
  have hnodup : (idsOf told).Nodup := by
    have hbatch := (List.nodup_append.mp hs.nodup).1
    rwa [htold, huntold, List.append_nil] at hbatch
  have hsettle := mem_settle hnodup hl.distinct
  have hstopped : (s.closed (observerBehaviour custom) told).isStopped = s.isStopped :=
    (releaseAll_frame custom (Registry.settle s.registry.detached told).2.1 _).1
  have hobservers : (s.closed (observerBehaviour custom) told).observers =
      (Registry.settle s.registry.detached told).1 ++ s.registry.idle := rfl
  have hbox : (s.closed (observerBehaviour custom) told).post.box? key =
      if key ∈ mailboxes (Registry.settle s.registry.detached told).2.1
      then (s.post.box? key).map Box.shut else s.post.box? key :=
    box?_releaseAll custom (Registry.settle s.registry.detached told).2.1 s.detector.hub.world key
  -- Only a waiter that was removed has its mailbox closed now.
  have hgone : (Registry.settle s.registry.detached told).2.1 ⊆ s.observers := fun o ho =>
    told_subset_observers s (htold ▸ ((hsettle o).2.mp ho).1)
  have hkeeps : (∀ o, (id, o) ∈ told → id ∉ s.registry.detached) →
      (s.closed (observerBehaviour custom) told).post.box? key = s.post.box? key := fun hnot =>
    hbox.trans (if_neg (hown.not_mem_mailboxes hgone fun o ho =>
      hnot o ((hsettle _).2.mp ho).1 ((hsettle _).2.mp ho).2))
  cases h with
  | untold _ _ hin _ _ _ => simp [huntold] at hin
  | idle hin hlive hkept hasked hboxed =>
    refine .idle (List.mem_append_right _ hin) (hstopped.trans hlive) hkept hasked ?_
    exact (hkeeps fun _ _ => hs.not_mem_detached hin).trans hboxed
  | gone hnot hover hasked hkept =>
    have hnot' : ∀ o, (id, o) ∉ told := fun o ho =>
      hnot o (told_subset_observers s (htold ▸ ho))
    refine .gone (fun o ho => ?_) (hstopped ▸ hover) hasked fun hin => ⟨(hkept hin).1, ?_⟩
    · rcases List.mem_append.mp (hobservers ▸ ho) with hstays | hidle
      · exact hnot' o ((hsettle _).1.mp hstays).1
      · exact hnot o (idle_subset_observers s hidle)
    · exact (hkeeps fun o ho => absurd ho (hnot' o)).trans (hkept hin).2
  | told hin hdetached hasked hboxed =>
    rw [htold] at hin
    by_cases hdet : id ∈ s.registry.detached
    · refine .gone (fun o ho => ?_) (hstopped ▸ hdetached.mp hdet) (hasked ▸ List.prefix_refl _)
        fun hkept => ⟨hasked, ?_⟩
      · rcases List.mem_append.mp (hobservers ▸ ho) with hstays | hidle
        · exact ((hsettle _).1.mp hstays).2 hdet
        · exact hs.not_mem_idle (List.mem_append_left _ (htold ▸ hin)) o hidle
      · rw [hbox, if_pos (mem_mailboxes.mpr ⟨_, (hsettle _).2.mpr ⟨hin, hdet⟩, rfl⟩), hboxed hkept,
          Option.map_some, Box.shut_listening]
    · obtain ⟨hlive, hkept⟩ := not_or.mp (mt hdetached.mpr hdet)
      refine .idle (List.mem_append_left _ ((hsettle _).1.mpr ⟨hin, hdet⟩))
        (hstopped.trans (by simpa using hlive)) (not_not.mp hkept) hasked ?_
      exact (hkeeps fun _ _ => hdet).trans (hboxed (not_not.mp hkept))

/-- Whoever has its number is a waiter. -/
theorem Fate.listens (h : Fate id key accepts s heard asked) (hs : Sound s) {o : Observer κ}
    (ho : (id, o) ∈ s.observers) : ∃ heard', o = .listening key accepts heard' := by
  cases h with
  | idle hin _ _ _ _ => exact ⟨_, hs.unique ho (idle_subset_observers s hin)⟩
  | untold _ _ hin _ _ _ => exact ⟨_, hs.unique ho (untold_subset_observers s hin)⟩
  | told hin _ _ _ => exact ⟨_, hs.unique ho (told_subset_observers s hin)⟩
  | gone hnot _ _ _ => exact absurd ho (hnot o)

/-- **What each step makes of a wait**, but for the removal of its waiter by
somebody else. -/
theorem Step.fate {h : Happening} (hstep : Step (observerBehaviour custom) s h s') (hs : Sound s)
    (hown : Own id key s) (hne : h ≠ .removed id) (hfate : Fate id key accepts s heard asked) :
    Fate id key accepts s' (heard ++ h.heard s.isStopped) (asked ++ h.asks key) := by
  -- A step that nobody hears of and in which it is not asked.
  have hquiet {h : Happening} (hheard : h.heard s.isStopped = []) (hasks : h.asks key = [])
      (hfate' : Fate id key accepts s' heard asked) :
      Fate id key accepts s' (heard ++ h.heard s.isStopped) (asked ++ h.asks key) := by
    rwa [hheard, hasks, List.append_nil, List.append_nil]
  cases hstep with
  | subscribe o => exact hquiet rfl rfl (hfate.aside (aside_subscribe hown o))
  | unsubscribe other =>
    have hother : other ≠ id := fun heq => hne (heq ▸ rfl)
    exact hquiet rfl rfl (hfate.aside (aside_remove custom hown hother))
  | stop => exact hquiet rfl rfl (hfate.stop custom hs hown)
  | waitFor accepts' =>
    refine hquiet rfl rfl (hfate.aside ?_)
    have hentered := aside_enter hown accepts'
    have hnew : s.registry.next ≠ id := Nat.ne_of_gt hown.id_lt
    rw [waitFor_eq]
    simp only
    split
    · exact hentered.trans (aside_remove custom ((grows_enter s accepts').own hown) hnew)
    · exact hentered
  | @poll other box hin =>
    rcases hown.futures _ hin with heq | ⟨hid, hkey⟩
    · obtain ⟨rfl, rfl⟩ := Prod.mk.inj heq
      exact hquiet rfl rfl (hfate.poll custom hs)
    · exact hquiet rfl rfl (hfate.aside (aside_poll custom hown hid hkey))
  | @giveUp other box hin =>
    rcases hown.futures _ hin with heq | ⟨hid, hkey⟩
    · obtain ⟨rfl, rfl⟩ := Prod.mk.inj heq
      exact hquiet rfl rfl (hfate.endWait custom hs s.post)
    · exact hquiet rfl rfl (hfate.aside (aside_endWait custom hown hid hkey))
  | other d hregistry hpost hstopped =>
    refine hquiet rfl rfl (hfate.aside ⟨hstopped, .rfl, rfl, fun o => ?_, fun _ => .rfl,
      fun _ => .rfl, ?_, congrArg (Post.box? · key) hpost⟩)
    · exact (congrArg (fun r => (id, o) ∈ Registry.idle r) hregistry).to_iff
    · exact (congrArg (fun r => id ∈ Registry.detached r) hregistry).to_iff
  | opens e htelling =>
    have hasks : (Happening.began e).asks key = [] := rfl
    rw [hasks, List.append_nil]
    exact hfate.opened hs htelling e
  | @tellsCustom e told untold other o next htelling =>
    refine hquiet rfl rfl (hfate.aside (aside_tells htelling ?_ rfl rfl rfl))
    rintro rfl
    have hfirst : (other, .custom o) ∈ s.untold := by simp [Scene.untold, htelling]
    obtain ⟨heard', heq⟩ := hfate.listens hs (untold_subset_observers s hfirst)
    cases heq
  | @tellsWaiter e told untold other k a before fired hub next htelling hrun =>
    by_cases hother : other = id
    · subst hother
      obtain ⟨rfl, hnext⟩ := hfate.told_next custom hs htelling hrun
      cases fired with
      | true => simpa [Happening.heard, Happening.asks] using hnext
      | false => simpa [Happening.heard, Happening.asks] using hnext
    · have hfirst : (other, .waiter k a before fired) ∈ s.untold := by simp [Scene.untold, htelling]
      have hkey : key ≠ k := fun heq =>
        hother (hown.observers _ (untold_subset_observers s hfirst) (congrArg some heq.symm))
      obtain ⟨hregistry, hstopped, -, -, -, hboxes⟩ := waiterReaction_frame hrun
      refine hquiet ?_ ?_ (hfate.aside
        (aside_tells htelling hother hregistry hstopped (hboxes key hkey)))
      · cases fired <;> rfl
      · cases fired
        · exact if_neg hkey.symm
        · rfl
  | closes htelling => exact hquiet rfl rfl (hfate.closed custom hs hown htelling)

/-- Whether the detector is stopped behind a step. -/
theorem Step.isStopped_eq {h : Happening} (hstep : Step (observerBehaviour custom) s h s') :
    s'.isStopped = (s.isStopped || h.stops) := by
  cases hstep with
  | stop =>
    rw [Happening.stops, Bool.or_true]
    exact (releaseAll_frame custom s.registry.idle s.detector.hub.world.cancel).1
  | unsubscribe id => exact (removes_remove custom s id).cancelled.trans (Bool.or_false _).symm
  | waitFor accepts =>
    rw [waitFor_eq]
    simp only
    split
    · exact (removes_remove custom (s.enter accepts) _).cancelled.trans (Bool.or_false _).symm
    · exact (Bool.or_false _).symm
  | @poll id key _ =>
    rw [poll_eq]
    simp only
    split
    · exact (Bool.or_false _).symm
    · exact (removes_remove custom (s.withPost (s.post.poll key).1) id).cancelled.trans
        (Bool.or_false _).symm
  | giveUp _ => exact (removes_remove custom s _).cancelled.trans (Bool.or_false _).symm
  | other _ _ _ hstopped => exact hstopped.trans (Bool.or_false _).symm
  | @tellsWaiter e _ _ _ key _ _ fired _ _ _ hrun =>
    have hstops : (if fired then Happening.quiet else .asked key e).stops = false := by
      cases fired <;> rfl
    rw [hstops, Bool.or_false]
    exact (waiterReaction_frame hrun).2.1
  | closes _ => exact (releaseAll_frame custom _ _).1.trans (Bool.or_false _).symm
  | subscribe _ | opens _ _ | tellsCustom _ _ => exact (Bool.or_false _).symm

end Scene

/-! ## §4 Runs -/

/-- The events that observers hear of: those whose dispatch begins before
the detector is stopped. -/
def heardIn : Bool → List Happening → List Event
  | _, [] => []
  | stopped, h :: rest => h.heard stopped ++ heardIn (stopped || h.stops) rest

/-- What the test of the waiter with this mailbox is asked about. -/
def askedIn (key : Nat) (trace : List Happening) : List Event := trace.flatMap (·.asks key)

theorem heardIn_append (stopped : Bool) (trace later : List Happening) :
    heardIn stopped (trace ++ later) =
      heardIn stopped trace ++ heardIn (stopped || trace.any (·.stops)) later := by
  induction trace generalizing stopped with
  | nil => simp [heardIn]
  | cons h rest ih => simp [heardIn, ih, Bool.or_assoc]

/-- What a reader makes of a box. -/
def Box.answer : Box → Option (Except DetectError Event)
  | .waiting => none
  | .delivered e => some (.ok e)
  | .closed => some (.error .stopped)

namespace Scene

variable {s s' : Scene κ υ} {id : ObserverId} {key : Nat} {accepts : List Event → Event → Bool}
  (custom : κ → Event → Reaction κ υ)

theorem Run.isStopped_eq {trace : List Happening}
    (hrun : Run (observerBehaviour custom) s trace s') :
    s'.isStopped = (s.isStopped || trace.any (·.stops)) := by
  induction hrun with
  | nil => exact (Bool.or_false _).symm
  | snoc _ hstep ih => simp [hstep.isStopped_eq, ih, Bool.or_assoc]

theorem Run.fate {trace : List Happening} (hrun : Run (observerBehaviour custom) s trace s')
    (hs : Sound s) (hown : Own id key s) (hfate : Fate id key accepts s [] [])
    (hne : .removed id ∉ trace) :
    Sound s' ∧ Own id key s' ∧
      Fate id key accepts s' (heardIn s.isStopped trace) (askedIn key trace) := by
  induction hrun with
  | nil => exact ⟨hs, hown, hfate⟩
  | @snoc trace s₁ h s₂ hrun hstep ih =>
    obtain ⟨hs₁, hown₁, hfate₁⟩ := ih fun hin => hne (List.mem_append_left _ hin)
    have hfate₂ := hstep.fate custom hs₁ hown₁
      (fun heq => hne (heq ▸ List.mem_append_right _ (List.mem_singleton_self _))) hfate₁
    refine ⟨hstep.sound custom hs₁, (hstep.grows custom).own hown₁, ?_⟩
    rw [heardIn_append, askedIn, List.flatMap_append, ← hrun.isStopped_eq]
    simpa [heardIn, askedIn] using hfate₂

theorem own_enter (hs : Sound s) (accepts : List Event → Event → Bool) :
    Own s.registry.next s.post.next (s.enter accepts) where
  id_lt := Nat.lt_succ_self _
  key_lt := Nat.lt_succ_self _
  observers o ho hkey := by
    have hobservers : (s.enter accepts).observers =
        s.observers ++ [(s.registry.next, .waiter s.post.next accepts [] false)] :=
      (List.append_assoc _ _ _).symm
    rcases List.mem_append.mp (hobservers ▸ ho) with hold | hnew
    · exact absurd (hs.observers _ (mem_mailboxes.mpr ⟨o, hold, hkey⟩)) (Nat.lt_irrefl _)
    · rw [List.mem_singleton.mp hnew]
  futures f hf := by
    rcases List.mem_cons.mp hf with rfl | hf
    · exact .inl rfl
    · exact .inr ⟨Nat.ne_of_lt (hs.futures f hf).1, Nat.ne_of_lt (hs.futures f hf).2⟩

/-- A wait begins: its waiter is idle, and nobody else has its numbers. Of a
stopped detector it is gone at once. -/
theorem waitFor_fate (hs : Sound s) (accepts : List Event → Event → Bool) :
    let wait := s.waitFor (observerBehaviour custom) accepts
    Own wait.2.1 wait.2.2 wait.1 ∧ Fate wait.2.1 wait.2.2 accepts wait.1 [] [] ∧
      wait.1.isStopped = s.isStopped := by
  have hown := own_enter hs accepts
  have hbox : (s.enter accepts).post.box? s.post.next = some .waiting := Post.box?_fresh hs.boxes
  have hin : (s.registry.next, .waiter s.post.next accepts [] false) ∈
      (s.enter accepts).registry.idle := List.mem_append_right _ (List.mem_singleton_self _)
  rw [waitFor_eq]
  cases hstopped : s.isStopped with
  | false => exact ⟨hown, .idle hin hstopped List.mem_cons_self rfl hbox, hstopped⟩
  | true =>
    have hsound := (grows_enter s accepts).sound hs (agrees_enter hs accepts)
    obtain ⟨l, hl, -⟩ := hsound.agrees
    have hremoves := removes_remove custom (s.enter accepts) s.registry.next
    have hnot := not_has_remove custom hl s.registry.next
    have hlive := hremoves.cancelled.trans hstopped
    refine ⟨(grows_remove custom _ _).own hown, ?_, hlive⟩
    refine .gone (fun o ho => ?_) (.inl hlive) (List.prefix_refl _) fun _ => ⟨rfl, ?_⟩
    · rcases List.mem_append.mp ho with hbatch | hidle
      · exact Nat.lt_irrefl _ (hs.lt_next (List.mem_append_left _ hbatch))
      · exact hnot (.inl (List.mem_map_of_mem hidle))
    · rw [if_pos rfl, box?_remove custom hsound hin rfl, hbox]
      rfl

theorem pollWait_eq {box : Box} (h : s.post.box? key = some box) :
    (s.detector.pollWait key).2 = box.answer := by
  have hlookup : s.detector.hub.world.post.boxes.lookup key = some box := h
  unfold Detector.pollWait Post.poll
  rw [hlookup]
  cases box <;> rfl

/-- What a wait comes to that has heard `heard` and whose test was asked
about `asked`. -/
structure Awaited (b : Behaviour (Observer κ) (Control υ)) (id : ObserverId) (key : Nat)
    (accepts : List Event → Event → Bool) (s : Scene κ υ) (heard asked : List Event) : Prop where
  /-- Its test is asked in order, up to the first event that it accepts, and
  never again. -/
  asked_prefix : asked <+: (listen accepts [] heard).1
  /-- It is asked about all of them, once the running dispatch has told it. -/
  asked_all : (id, key) ∈ s.futures → id ∉ idsOf s.untold → asked = (listen accepts [] heard).1
  /-- As long as that has still to tell it, it is asked about those before. -/
  asked_before : id ∈ idsOf s.untold → ∃ before e, heard = before ++ [e] ∧ s.event? = some e ∧
    asked = (listen accepts [] before).1
  /-- A look finds the first event that is accepted, and else that the
  detector is stopped, as soon as no dispatch has its waiter. -/
  found : (id, key) ∈ s.futures → id ∉ idsOf s.untold → ∀ e, (listen accepts [] heard).2 = some e →
    (s.detector.pollWait key).2 = some (.ok e)
  pending : (id, key) ∈ s.futures → (listen accepts [] heard).2 = none →
    (s.isStopped = false ∨ id ∈ s.registry.inFlight) → (s.detector.pollWait key).2 = none
  stopped : (id, key) ∈ s.futures → (listen accepts [] heard).2 = none → s.isStopped = true →
    id ∉ s.registry.inFlight → (s.detector.pollWait key).2 = some (.error .stopped)
  /-- It never finds anything else. -/
  answer : (id, key) ∈ s.futures → ∀ r, (s.detector.pollWait key).2 = some r →
    (∃ e, (listen accepts [] heard).2 = some e ∧ r = .ok e) ∨
      (listen accepts [] heard).2 = none ∧ s.isStopped = true ∧ r = .error .stopped
  /-- A wait that found something is over. -/
  completes : (s.detector.pollWait key).2.isSome = true → (id, key) ∉ (s.poll b id key).futures
  /-- When it is over or given up, its waiter is not registered. -/
  unregistered : (id, key) ∉ s.futures → ¬ s.Has id

theorem poll_completes (b : Behaviour (Observer κ) (Control υ))
    (h : (s.detector.pollWait key).2.isSome = true) : (id, key) ∉ (s.poll b id key).futures := by
  unfold poll
  split
  · next heq =>
    rw [heq] at h
    cases h
  · simp [endWait]

theorem pollWait_waiting {heard : List Event}
    (h : s.post.box? key = some (.listening .waiting accepts heard)) :
    (s.detector.pollWait key).2 = (listen accepts [] heard).2.map .ok := by
  rw [pollWait_eq h, Box.listening]
  cases (listen accepts [] heard).2 <;> rfl

theorem found_of_pollWait {heard : List Event} {r : Except DetectError Event}
    (h : s.post.box? key = some (.listening .waiting accepts heard))
    (hr : (s.detector.pollWait key).2 = some r) :
    ∃ e, (listen accepts [] heard).2 = some e ∧ r = .ok e := by
  rw [pollWait_waiting h] at hr
  obtain ⟨e, he, rfl⟩ := Option.map_eq_some_iff.mp hr
  exact ⟨e, he, rfl⟩

theorem pollWait_closed {heard : List Event}
    (h : s.post.box? key = some (.listening .closed accepts heard)) :
    (s.detector.pollWait key).2 =
      some (match (listen accepts [] heard).2 with
        | some e => .ok e
        | none => .error .stopped) := by
  rw [pollWait_eq h, Box.listening]
  cases (listen accepts [] heard).2 <;> rfl

theorem exists_of_mem_idsOf {observers : List (ObserverId × Observer κ)}
    (h : id ∈ idsOf observers) : ∃ o, (id, o) ∈ observers := by
  obtain ⟨⟨id', o⟩, ho, rfl⟩ := List.mem_map.mp h
  exact ⟨o, ho⟩

theorem not_has_of_detached (hs : Sound s) {o : Observer κ} (ho : (id, o) ∈ s.told ++ s.untold)
    (hdetached : id ∈ s.registry.detached) : ¬ s.Has id := by
  rintro (hidle | ⟨-, hdet⟩)
  · obtain ⟨o', ho'⟩ := exists_of_mem_idsOf hidle
    exact hs.not_mem_idle ho o' ho'
  · exact hdet hdetached

theorem Fate.awaited {heard asked : List Event} (h : Fate id key accepts s heard asked)
    (hs : Sound s) : Awaited (observerBehaviour custom) id key accepts s heard asked := by
  have hcompletes : (s.detector.pollWait key).2.isSome = true →
      (id, key) ∉ (s.poll (observerBehaviour custom) id key).futures := poll_completes _
  cases h with
  | idle hin hlive hkept hasked hbox =>
    have hlook := pollWait_waiting hbox
    exact {
      asked_prefix := hasked ▸ List.prefix_refl _
      asked_all := fun _ _ => hasked
      asked_before := fun huntold => by
        obtain ⟨o, ho⟩ := exists_of_mem_idsOf huntold
        exact absurd hin (hs.not_mem_idle (List.mem_append_right _ ho) _)
      found := fun _ _ e he => by rw [hlook, he]; rfl
      pending := fun _ hnone _ => by rw [hlook, hnone]; rfl
      stopped := fun _ _ hstopped => absurd (hlive.symm.trans hstopped) Bool.false_ne_true
      answer := fun _ _ hr => .inl (found_of_pollWait hbox hr)
      completes := hcompletes
      unregistered := fun hnot => absurd hkept hnot }
  | @untold before e hevent hheard hin hdetached hasked hbox =>
    subst hheard
    have hbatch := List.mem_append_right s.told hin
    have hearly : ∀ e', (listen accepts [] before).2 = some e' →
        (listen accepts [] (before ++ [e])).2 = some e' := fun e' he => by
      rw [listen_of_some (by rw [he, Option.isSome_some]), he]
    exact {
      asked_prefix := hasked ▸ listen_append_isPrefix _ _ _ _
      asked_all := fun _ hnot => absurd (List.mem_map_of_mem hin) hnot
      asked_before := fun _ => ⟨before, e, rfl, hevent, hasked⟩
      found := fun _ hnot => absurd (List.mem_map_of_mem hin) hnot
      pending := fun hkept hnone _ => by
        rw [pollWait_waiting (hbox hkept)]
        cases hbefore : (listen accepts [] before).2 with
        | none => rfl
        | some e' => cases hnone.symm.trans (hearly e' hbefore)
      stopped := fun _ _ _ hnot => absurd (hs.mem_inFlight hbatch) hnot
      answer := fun hkept _ hr =>
        (found_of_pollWait (hbox hkept) hr).elim fun e' h => .inl ⟨e', hearly e' h.1, h.2⟩
      completes := hcompletes
      unregistered := fun hnot => not_has_of_detached hs hbatch (hdetached.mpr (.inr hnot)) }
  | told hin hdetached hasked hbox =>
    have hbatch := List.mem_append_left s.untold hin
    exact {
      asked_prefix := hasked ▸ List.prefix_refl _
      asked_all := fun _ _ => hasked
      asked_before := fun huntold => by
        obtain ⟨o, ho⟩ := exists_of_mem_idsOf huntold
        exact absurd ho (hs.not_mem_untold hin o)
      found := fun hkept _ e he => by rw [pollWait_waiting (hbox hkept), he]; rfl
      pending := fun hkept hnone _ => by rw [pollWait_waiting (hbox hkept), hnone]; rfl
      stopped := fun _ _ _ hnot => absurd (hs.mem_inFlight hbatch) hnot
      answer := fun hkept _ hr => .inl (found_of_pollWait (hbox hkept) hr)
      completes := hcompletes
      unregistered := fun hnot => not_has_of_detached hs hbatch (hdetached.mpr (.inr hnot)) }
  | gone hnot hover hasked hkept =>
    have hfly : id ∉ s.registry.inFlight := fun hfly => by
      obtain ⟨o, ho⟩ := exists_of_mem_idsOf (hs.inFlight ▸ hfly)
      exact hnot o (List.mem_append_left _ ho)
    have hidle : id ∉ idsOf s.registry.idle := fun hidle => by
      obtain ⟨o, ho⟩ := exists_of_mem_idsOf hidle
      exact hnot o (idle_subset_observers s ho)
    have hstopped : (id, key) ∈ s.futures → s.isStopped = true := fun hin =>
      hover.resolve_right fun hout => hout hin
    exact {
      asked_prefix := hasked
      asked_all := fun hin _ => (hkept hin).1
      asked_before := fun huntold => by
        obtain ⟨o, ho⟩ := exists_of_mem_idsOf huntold
        exact absurd (untold_subset_observers s ho) (hnot o)
      found := fun hin _ e he => by rw [pollWait_closed (hkept hin).2, he]
      pending := fun hin _ hyet => by
        rw [hstopped hin] at hyet
        exact (hfly (hyet.resolve_left (by simp))).elim
      stopped := fun hin hnone _ _ => by rw [pollWait_closed (hkept hin).2, hnone]
      answer := fun hin r hr => by
        rw [pollWait_closed (hkept hin).2] at hr
        obtain rfl := Option.some.inj hr
        cases hlisten : (listen accepts [] heard).2 with
        | some e => exact .inl ⟨e, rfl, rfl⟩
        | none => exact .inr ⟨rfl, hstopped hin, rfl⟩
      completes := hcompletes
      unregistered := fun _ hhas => hhas.elim hidle fun hfly' => hfly hfly'.1 }

/-- **A wait finds the first event that it accepts and nothing else**,
whatever happens before it begins and behind that, as long as nobody else
removes its waiter. -/
theorem Run.awaits {path : String} {user : υ} {before : List Happening}
    (hbefore : Run (observerBehaviour custom) (ofPath path user) before s)
    (accepts : List Event → Event → Bool) {after : List Happening}
    (hafter : Run (observerBehaviour custom) (s.waitFor (observerBehaviour custom) accepts).1
      after s')
    (hne : .removed (s.waitFor (observerBehaviour custom) accepts).2.1 ∉ after) :
    Awaited (observerBehaviour custom) (s.waitFor (observerBehaviour custom) accepts).2.1
      (s.waitFor (observerBehaviour custom) accepts).2.2 accepts s' (heardIn s.isStopped after)
      (askedIn (s.waitFor (observerBehaviour custom) accepts).2.2 after) := by
  have hs := hbefore.sound custom (sound_ofPath path user)
  obtain ⟨hown, hfate, hstopped⟩ := waitFor_fate custom hs accepts
  have hsound := (Step.waitFor (b := observerBehaviour custom) accepts).sound custom hs
  obtain ⟨hs', -, hfate'⟩ := hafter.fate custom hsound hown hfate hne
  rw [hstopped] at hfate'
  exact hfate'.awaited custom hs'

end Scene

end Runwatch.Telemetry
