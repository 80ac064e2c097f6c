/-
Runwatch.Proofs.Telemetry.Sound — whose number is whose.

An observer, its mailbox and the wait that somebody holds know each other by
numbers. In a sound scene every number stands for one thing, and a step
gives out only numbers that nobody has: so what belongs to one wait is not
touched by what others do.

  §1 Mailboxes    — what lies in one box, whatever happens to others.
  §2 Sound scenes — numbers that are used once (`Sound`, `Own`), and that
                    each step keeps them so (`Step.grows`, `Step.sound`).
-/
import Runwatch.Proofs.Telemetry.Ledger
import Runwatch.Proofs.Telemetry.Scene

namespace Runwatch.Telemetry

variable {κ υ : Type}

/-! ## §1 Mailboxes -/

/-- What lies in a box whose sender goes away. -/
def Box.shut : Box → Box
  | .waiting => .closed
  | b => b

@[simp] theorem Box.shut_shut (b : Box) : b.shut.shut = b.shut := by cases b <;> rfl

namespace Post

/-- What lies in a box. -/
def box? (p : Post) (key : Nat) : Option Box := p.boxes.lookup key

/-- The numbers of the boxes. -/
def keys (p : Post) : List Nat := p.boxes.map (·.1)

/-- All boxes have numbers that were given out. -/
def Below (p : Post) : Prop := ∀ key ∈ p.keys, key < p.next

theorem lookup_cons (k : Nat) (b : Box) (rest : List (Nat × Box)) (key : Nat) :
    ((k, b) :: rest).lookup key = if key = k then some b else rest.lookup key := by
  rw [List.lookup_cons]
  by_cases h : key = k
  · rw [if_pos h, beq_iff_eq.mpr h]
  · rw [if_neg h, beq_false_of_ne h]

theorem boxes_update (p : Post) (k : Nat) (f : Box → Box) :
    (p.update k f).boxes =
      p.boxes.map fun box => (box.1, if box.1 = k then f box.2 else box.2) := by
  refine List.map_congr_left fun box _ => ?_
  by_cases h : box.1 = k <;> simp [h]

theorem box?_update (p : Post) (k : Nat) (f : Box → Box) (key : Nat) :
    (p.update k f).box? key = if key = k then (p.box? key).map f else p.box? key := by
  rw [box?, box?, boxes_update]
  induction p.boxes with
  | nil => simp
  | cons box rest ih =>
    obtain ⟨k', b⟩ := box
    rw [List.map_cons, lookup_cons, ih, lookup_cons]
    by_cases hkey : key = k'
    · by_cases hk : k' = k <;> simp [hkey, hk]
    · simp [hkey]

theorem box?_deliver_of_ne {p : Post} {k key : Nat} (h : key ≠ k) (e : Event) :
    (p.deliver k e).box? key = p.box? key := by
  rw [deliver, box?_update, if_neg h]

theorem box?_deliver {p : Post} {key : Nat} (h : p.box? key = some .waiting) (e : Event) :
    (p.deliver key e).box? key = some (.delivered e) := by
  rw [deliver, box?_update, if_pos rfl, h, Option.map_some]

theorem box?_close (p : Post) (k key : Nat) :
    (p.close k).box? key = if key = k then (p.box? key).map Box.shut else p.box? key :=
  box?_update p k Box.shut key

theorem box?_fresh_of_ne {p : Post} {key : Nat} (h : key ≠ p.next) :
    p.fresh.1.box? key = p.box? key := by
  have hother : List.lookup key [(p.next, Box.waiting)] = none := by
    rw [lookup_cons, if_neg h, List.lookup_nil]
  rw [box?, fresh, List.lookup_append, hother, Option.or_none]
  rfl

theorem box?_eq_none {p : Post} (h : p.Below) {key : Nat} (hkey : p.next ≤ key) :
    p.box? key = none := by
  rw [box?, List.lookup_eq_none_iff]
  intro box hbox
  have hlt := h box.1 (List.mem_map_of_mem hbox)
  exact bne_iff_ne.mpr (by omega)

theorem box?_fresh {p : Post} (h : p.Below) : p.fresh.1.box? p.next = some .waiting := by
  have hnone := box?_eq_none h (Nat.le_refl _)
  rw [box?] at hnone
  rw [box?, fresh, List.lookup_append, hnone]
  simp

theorem box?_abandon_of_ne {p : Post} {k key : Nat} (h : key ≠ k) :
    (p.abandon k).box? key = p.box? key := by
  unfold box? abandon
  induction p.boxes with
  | nil => rfl
  | cons box rest ih =>
    obtain ⟨k', b⟩ := box
    rw [List.filter_cons, lookup_cons]
    split
    · rw [lookup_cons, ih]
    · next hk =>
      have hne : key ≠ k' := by
        rintro rfl
        exact hk (bne_iff_ne.mpr h)
      rw [ih, if_neg hne]

theorem box?_poll_of_ne {p : Post} {k key : Nat} (h : key ≠ k) :
    (p.poll k).1.box? key = p.box? key := by
  unfold poll
  split
  · rfl
  · exact (box?_update _ _ _ _).trans (if_neg h)
  · rfl
  · rfl

@[simp] theorem keys_update (p : Post) (k : Nat) (f : Box → Box) :
    (p.update k f).keys = p.keys := by
  rw [keys, keys, boxes_update, List.map_map]
  rfl

@[simp] theorem next_poll (p : Post) (k : Nat) : (p.poll k).1.next = p.next := by
  unfold poll
  split <;> rfl

theorem keys_poll (p : Post) (k : Nat) : (p.poll k).1.keys = p.keys := by
  unfold poll
  split
  · rfl
  · exact keys_update p k _
  · rfl
  · rfl

theorem poll_pending {p : Post} {k : Nat} (h : (p.poll k).2 = .pending) : (p.poll k).1 = p := by
  unfold poll at h ⊢
  split at h <;> first | rfl | cases h

theorem keys_abandon_subset (p : Post) (k : Nat) : (p.abandon k).keys ⊆ p.keys :=
  List.map_subset _ List.filter_sublist.subset

end Post

namespace Detector

variable {d d' : Detector κ υ} {key : Nat}

theorem fst_pollWait (d : Detector κ υ) (key : Nat) :
    (d.pollWait key).1 = d.withHub
      { d.hub with world := { d.hub.world with post := (d.hub.world.post.poll key).1 } } := by
  unfold pollWait
  cases d.hub.world.post.poll key with
  | mk post found => cases found <;> rfl

/-- A look changes neither the registry nor the read loop. -/
theorem pollWait_frame {answer : Option (Except DetectError Event)}
    (h : d.pollWait key = (d', answer)) :
    d' = { d with hub := d'.hub } ∧ d'.hub.registry = d.hub.registry := by
  obtain rfl : (d.pollWait key).1 = d' := congrArg Prod.fst h
  rw [fst_pollWait]
  exact ⟨rfl, rfl⟩

/-- A look that finds nothing changes nothing. -/
theorem pollWait_none (h : d.pollWait key = (d', none)) : d' = d := by
  unfold pollWait at h
  cases hpoll : d.hub.world.post.poll key with
  | mk post found =>
    rw [hpoll] at h
    cases found with
    | pending =>
      have hpost : post = d.hub.world.post := by
        rw [← Post.poll_pending (congrArg Prod.snd hpoll), hpoll]
      rw [← (Prod.mk.inj h).1, hpost]
    | fired e => cases (Prod.mk.inj h).2
    | closed => cases (Prod.mk.inj h).2

end Detector

/-- The mailbox of an observer. -/
def Observer.key? : Observer κ → Option Nat
  | .waiter key _ _ _ => some key
  | .custom _ => none

/-- The mailboxes of some observers. -/
def mailboxes (observers : List (ObserverId × Observer κ)) : List Nat :=
  observers.filterMap (·.2.key?)

theorem mem_mailboxes {observers : List (ObserverId × Observer κ)} {key : Nat} :
    key ∈ mailboxes observers ↔ ∃ o ∈ observers, o.2.key? = some key := List.mem_filterMap

variable (custom : κ → Event → Reaction κ υ)

/-- What lies in a box when observers are let go. -/
theorem box?_releaseAll (gone : List (ObserverId × Observer κ)) (c : Control υ) (key : Nat) :
    (Hub.releaseAll (observerBehaviour custom) gone c).post.box? key =
      if key ∈ mailboxes gone then (c.post.box? key).map Box.shut else c.post.box? key := by
  induction gone generalizing c with
  | nil => rfl
  | cons o rest ih =>
    obtain ⟨id, ⟨k, accepts, asked, fired⟩ | o⟩ := o
    · have hkeys : mailboxes ((id, .waiter k accepts asked fired) :: rest) =
          k :: mailboxes rest := rfl
      refine (ih { c with post := c.post.close k }).trans ?_
      rw [Post.box?_close, hkeys]
      by_cases hrest : key ∈ mailboxes rest
      · have htwice : (Box.shut ∘ Box.shut) = Box.shut := funext Box.shut_shut
        rw [if_pos hrest, if_pos (List.mem_cons_of_mem _ hrest)]
        split
        · rw [Option.map_map, htwice]
        · rfl
      · simp only [hrest, List.mem_cons, or_false, if_false]
    · exact ih c

theorem releaseAll_frame (gone : List (ObserverId × Observer κ)) (c : Control υ) :
    let c' := Hub.releaseAll (observerBehaviour custom) gone c
    c'.cancelled = c.cancelled ∧ c'.post.next = c.post.next ∧ c'.post.keys = c.post.keys := by
  induction gone generalizing c with
  | nil => exact ⟨rfl, rfl, rfl⟩
  | cons o rest ih =>
    obtain ⟨id, _ | _⟩ := o
    · obtain ⟨hcancelled, hnext, hkeys⟩ := ih { c with post := c.post.close _ }
      exact ⟨hcancelled, hnext, hkeys.trans (Post.keys_update _ _ _)⟩
    · exact ih c

theorem watching_releaseAll (gone : List (ObserverId × Observer κ)) (c : Control υ) :
    (Hub.releaseAll (observerBehaviour custom) gone c).watching = c.watching := by
  induction gone generalizing c with
  | nil => rfl
  | cons o rest ih => obtain ⟨id, _ | _⟩ := o <;> exact ih _

/-! ## §2 Sound scenes -/

namespace Scene

def event? (s : Scene κ υ) : Option Event := s.telling.map (·.event)

def told (s : Scene κ υ) : List (ObserverId × Observer κ) := (s.telling.map (·.told)).getD []

def untold (s : Scene κ υ) : List (ObserverId × Observer κ) := (s.telling.map (·.untold)).getD []

/-- All observers, in the registry or in the hands of the dispatch. -/
def observers (s : Scene κ υ) : List (ObserverId × Observer κ) :=
  s.told ++ s.untold ++ s.registry.idle

/-- The dispatch that is running, as a ledger knows it. -/
def rounds (s : Scene κ υ) : List Round :=
  s.telling.toList.map fun t => ⟨idsOf (t.told ++ t.untold), none, idsOf t.untold⟩

def withPost (s : Scene κ υ) (p : Post) : Scene κ υ :=
  { s with detector := s.detector.withHub { s.detector.hub with
      world := { s.detector.hub.world with post := p } } }

def remove (b : Behaviour (Observer κ) (Control υ)) (s : Scene κ υ) (id : ObserverId) : Scene κ υ :=
  { s with detector := (s.detector.unsubscribe b id).1 }

/-- A new waiter with a new mailbox, in a scene that may be stopped. -/
def enter (s : Scene κ υ) (accepts : List Event → Event → Bool) : Scene κ υ :=
  let s' := s.withPost s.post.fresh.1
  { s' with
    detector := (s'.detector.subscribe (.waiter s.post.next accepts [] false)).1
    futures := (s.registry.next, s.post.next) :: s.futures }

def forget (s : Scene κ υ) (future : ObserverId × Nat) : Scene κ υ :=
  { s with futures := s.futures.filter (· != future) }

variable (b : Behaviour (Observer κ) (Control υ))

theorem endWait_eq (s : Scene κ υ) (id : ObserverId) (key : Nat) :
    s.endWait b id key =
      ((s.remove b id).withPost ((s.remove b id).post.abandon key)).forget (id, key) := rfl

theorem waitFor_eq (s : Scene κ υ) (accepts : List Event → Event → Bool) :
    s.waitFor b accepts =
      (if s.isStopped then (s.enter accepts).remove b s.registry.next else s.enter accepts,
        s.registry.next, s.post.next) := by
  cases hstopped : s.detector.hub.world.cancelled <;>
    simp [waitFor, enter, remove, withPost, isStopped, Detector.waitFor, Detector.isStopped,
      Post.fresh, Detector.subscribe, Hub.subscribe, Registry.subscribe, Detector.withHub, post,
      registry, hstopped]

theorem poll_eq (s : Scene κ υ) (id : ObserverId) (key : Nat) :
    s.poll b id key =
      let s' := s.withPost (s.post.poll key).1
      match (s.post.poll key).2 with
      | .pending => s'
      | _ => s'.endWait b id key := by
  unfold poll Detector.pollWait
  simp only [post]
  cases (s.detector.hub.world.post.poll key).2 <;> rfl

/-- Numbers stand for one thing each: the registry is one that a ledger
knows, and nobody has the number of a mailbox or of a wait to come. -/
structure Sound (s : Scene κ υ) : Prop where
  agrees : ∃ l : Ledger, Agrees l s.registry ∧ l.rounds = s.rounds
  observers : ∀ key ∈ mailboxes s.observers, key < s.post.next
  boxes : s.post.Below
  futures : ∀ f ∈ s.futures, f.1 < s.registry.next ∧ f.2 < s.post.next

/-- A wait has its numbers for itself. -/
structure Own (id : ObserverId) (key : Nat) (s : Scene κ υ) : Prop where
  id_lt : id < s.registry.next
  key_lt : key < s.post.next
  observers : ∀ o ∈ s.observers, o.2.key? = some key → o.1 = id
  futures : ∀ f ∈ s.futures, f = (id, key) ∨ f.1 ≠ id ∧ f.2 ≠ key

/-- Numbers are given out in order, and to nobody twice. -/
structure Grows (s s' : Scene κ υ) : Prop where
  next : s.registry.next ≤ s'.registry.next
  keys : s.post.next ≤ s'.post.next
  observers : ∀ o ∈ s'.observers, ∀ key, o.2.key? = some key →
    (∃ o₀ ∈ s.observers, o₀.1 = o.1 ∧ o₀.2.key? = some key) ∨
      s.post.next ≤ key ∧ key < s'.post.next
  boxes : s.post.Below → s'.post.Below
  futures : ∀ f ∈ s'.futures, f ∈ s.futures ∨
    (s.registry.next ≤ f.1 ∧ f.1 < s'.registry.next) ∧ s.post.next ≤ f.2 ∧ f.2 < s'.post.next

namespace Grows

variable {s s' s'' : Scene κ υ} {id : ObserverId} {key : Nat}

theorem trans (h : Grows s s') (h' : Grows s' s'') : Grows s s'' where
  next := Nat.le_trans h.next h'.next
  keys := Nat.le_trans h.keys h'.keys
  observers o ho key hkey := by
    rcases h'.observers o ho key hkey with ⟨o₁, ho₁, hid, hkey₁⟩ | ⟨hle, hlt⟩
    · rcases h.observers o₁ ho₁ key hkey₁ with ⟨o₀, ho₀, hid₀, hkey₀⟩ | ⟨hle, hlt⟩
      · exact .inl ⟨o₀, ho₀, hid₀.trans hid, hkey₀⟩
      · exact .inr ⟨hle, Nat.lt_of_lt_of_le hlt h'.keys⟩
    · exact .inr ⟨Nat.le_trans h.keys hle, hlt⟩
  boxes hbelow := h'.boxes (h.boxes hbelow)
  futures f hf := by
    rcases h'.futures f hf with hf | ⟨⟨hid, hid'⟩, hkey, hkey'⟩
    · rcases h.futures f hf with hf | ⟨⟨hid, hid'⟩, hkey, hkey'⟩
      · exact .inl hf
      · exact .inr ⟨⟨hid, Nat.lt_of_lt_of_le hid' h'.next⟩, hkey,
          Nat.lt_of_lt_of_le hkey' h'.keys⟩
    · exact .inr ⟨⟨Nat.le_trans h.next hid, hid'⟩, Nat.le_trans h.keys hkey, hkey'⟩

theorem own (h : Grows s s') (hown : Own id key s) : Own id key s' where
  id_lt := Nat.lt_of_lt_of_le hown.id_lt h.next
  key_lt := Nat.lt_of_lt_of_le hown.key_lt h.keys
  observers o ho hkey := by
    rcases h.observers o ho key hkey with ⟨o₀, ho₀, hid, hkey₀⟩ | ⟨hle, -⟩
    · exact hid ▸ hown.observers o₀ ho₀ hkey₀
    · exact absurd hown.key_lt (Nat.not_lt.mpr hle)
  futures f hf := by
    rcases h.futures f hf with hf | ⟨⟨hid, -⟩, hkey, -⟩
    · exact hown.futures f hf
    · exact .inr ⟨Nat.ne_of_gt (Nat.lt_of_lt_of_le hown.id_lt hid),
        Nat.ne_of_gt (Nat.lt_of_lt_of_le hown.key_lt hkey)⟩

theorem sound (h : Grows s s') (hs : Sound s)
    (hagrees : ∃ l : Ledger, Agrees l s'.registry ∧ l.rounds = s'.rounds) : Sound s' where
  agrees := hagrees
  observers key hkey := by
    obtain ⟨o, ho, hkey⟩ := mem_mailboxes.mp hkey
    rcases h.observers o ho key hkey with ⟨o₀, ho₀, -, hkey₀⟩ | ⟨-, hlt⟩
    · exact Nat.lt_of_lt_of_le (hs.observers key (mem_mailboxes.mpr ⟨o₀, ho₀, hkey₀⟩)) h.keys
    · exact hlt
  boxes := h.boxes hs.boxes
  futures f hf := by
    rcases h.futures f hf with hf | ⟨⟨-, hid⟩, -, hkey⟩
    · exact ⟨Nat.lt_of_lt_of_le (hs.futures f hf).1 h.next,
        Nat.lt_of_lt_of_le (hs.futures f hf).2 h.keys⟩
    · exact ⟨hid, hkey⟩

/-- Where nobody gets a mailbox no numbers need be looked at. -/
theorem of_subset (hnext : s.registry.next ≤ s'.registry.next) (hpost : s'.post.next = s.post.next)
    (hkeys : s'.post.keys ⊆ s.post.keys)
    (hobservers : ∀ o ∈ s'.observers, ∀ key, o.2.key? = some key →
      ∃ o₀ ∈ s.observers, o₀.1 = o.1 ∧ o₀.2.key? = some key)
    (hfutures : s'.futures ⊆ s.futures) : Grows s s' where
  next := hnext
  keys := Nat.le_of_eq hpost.symm
  observers o ho key hkey := .inl (hobservers o ho key hkey)
  boxes hbelow key hkey := hpost ▸ hbelow key (hkeys hkey)
  futures _ hf := .inl (hfutures hf)

/-- The observers are among those that were there. -/
theorem of_observers_subset (hnext : s'.registry.next = s.registry.next)
    (hpost : s'.post.next = s.post.next) (hkeys : s'.post.keys ⊆ s.post.keys)
    (hobservers : s'.observers ⊆ s.observers) (hfutures : s'.futures ⊆ s.futures) : Grows s s' :=
  of_subset (Nat.le_of_eq hnext.symm) hpost hkeys
    (fun o ho _ hkey => ⟨o, hobservers ho, rfl, hkey⟩) hfutures

end Grows

theorem observers_subset {s s' : Scene κ υ} (htold : s'.told = s.told)
    (huntold : s'.untold = s.untold) (hidle : s'.registry.idle ⊆ s.registry.idle) :
    s'.observers ⊆ s.observers := by
  rw [observers, observers, htold, huntold]
  exact List.append_subset.mpr ⟨List.subset_append_left _ _,
    List.Subset.trans hidle (List.subset_append_right _ _)⟩

/-- What the removal of an observer leaves alone. -/
structure Removes (id : ObserverId) (h h' : Hub (Observer κ) (Control υ)) : Prop where
  next : h'.registry.next = h.registry.next
  inFlight : h'.registry.inFlight = h.registry.inFlight
  idle : h'.registry.idle ⊆ h.registry.idle
  stays : ∀ o ∈ h.registry.idle, o.1 ≠ id → o ∈ h'.registry.idle
  detached : ∀ other, other ≠ id → (other ∈ h'.registry.detached ↔ other ∈ h.registry.detached)
  cancelled : h'.world.cancelled = h.world.cancelled
  post : h'.world.post.next = h.world.post.next ∧ h'.world.post.keys = h.world.post.keys
  box : ∀ key, (∀ o ∈ h.registry.idle, o.2.key? = some key → o.1 ≠ id) →
    h'.world.post.box? key = h.world.post.box? key

theorem Removes.refl (id : ObserverId) (h : Hub (Observer κ) (Control υ)) : Removes id h h :=
  ⟨rfl, rfl, List.Subset.refl _, fun _ ho _ => ho, fun _ _ => .rfl, rfl, ⟨rfl, rfl⟩, fun _ _ => rfl⟩

theorem removes_unsubscribe (h : Hub (Observer κ) (Control υ)) (id : ObserverId) :
    Removes id h (h.unsubscribe (observerBehaviour custom) id).1 := by
  simp only [Hub.unsubscribe]
  cases hfind : h.registry.idle.find? (·.1 == id) with
  | some gone =>
    have hgone : gone.1 = id := by simpa using List.find?_some hfind
    obtain ⟨hcancelled, hpost⟩ := releaseAll_frame custom [gone] h.world
    refine ⟨rfl, rfl, List.eraseP_subset, fun o ho hne => ?_, fun _ _ => .rfl, hcancelled, hpost,
      fun key hkey => ?_⟩
    · exact (List.mem_eraseP_of_neg (by simpa using hne)).mpr ho
    · refine (box?_releaseAll custom [gone] h.world key).trans (if_neg fun hin => ?_)
      obtain ⟨o, ho, hokey⟩ := mem_mailboxes.mp hin
      rw [List.mem_singleton.mp ho] at hokey
      exact hkey gone (List.mem_of_find?_eq_some hfind) hokey hgone
  | none =>
    simp only
    split
    · refine { Removes.refl id h with detached := fun other hne => ?_ }
      simp [hne]
    · exact .refl id h

theorem removes_remove (s : Scene κ υ) (id : ObserverId) :
    Removes id s.detector.hub (s.remove (observerBehaviour custom) id).detector.hub :=
  removes_unsubscribe custom s.detector.hub id

theorem grows_remove (s : Scene κ υ) (id : ObserverId) :
    Grows s (s.remove (observerBehaviour custom) id) := by
  have hremoves := removes_remove custom s id
  exact .of_observers_subset hremoves.next hremoves.post.1 (hremoves.post.2 ▸ List.Subset.refl _)
    (observers_subset rfl rfl hremoves.idle) (List.Subset.refl _)

theorem agrees_remove {s : Scene κ υ} (hs : Sound s) (id : ObserverId) :
    ∃ l : Ledger, Agrees l (s.remove (observerBehaviour custom) id).registry ∧
      l.rounds = (s.remove (observerBehaviour custom) id).rounds := by
  obtain ⟨l, hl, hrounds⟩ := hs.agrees
  exact ⟨_, (hl.unsubscribe _ id).2, hrounds⟩

theorem grows_withPost {s : Scene κ υ} {p : Post} (hnext : p.next = s.post.next)
    (hkeys : p.keys ⊆ s.post.keys) : Grows s (s.withPost p) :=
  .of_observers_subset rfl hnext hkeys (List.Subset.refl _) (List.Subset.refl _)

theorem grows_forget (s : Scene κ υ) (future : ObserverId × Nat) : Grows s (s.forget future) :=
  .of_observers_subset rfl rfl (List.Subset.refl _) (List.Subset.refl _) List.filter_sublist.subset

theorem grows_endWait (s : Scene κ υ) (id : ObserverId) (key : Nat) :
    Grows s (s.endWait (observerBehaviour custom) id key) := by
  rw [endWait_eq]
  have hremoved := grows_remove custom s id
  generalize s.remove (observerBehaviour custom) id = removed at hremoved ⊢
  have habandoned : Grows removed (removed.withPost (removed.post.abandon key)) :=
    grows_withPost rfl (Post.keys_abandon_subset removed.post key)
  exact (hremoved.trans habandoned).trans (grows_forget _ _)

theorem grows_look (s : Scene κ υ) (key : Nat) : Grows s (s.withPost (s.post.poll key).1) :=
  grows_withPost (Post.next_poll _ key) (Post.keys_poll s.post key ▸ List.Subset.refl _)

theorem grows_poll (s : Scene κ υ) (id : ObserverId) (key : Nat) :
    Grows s (s.poll (observerBehaviour custom) id key) := by
  rw [poll_eq]
  simp only
  split
  · exact grows_look s key
  · exact (grows_look s key).trans (grows_endWait custom _ id key)

theorem grows_enter (s : Scene κ υ) (accepts : List Event → Event → Bool) :
    Grows s (s.enter accepts) where
  next := Nat.le_succ _
  keys := Nat.le_succ _
  observers o ho key hkey := by
    have hobservers : (s.enter accepts).observers =
        s.observers ++ [(s.registry.next, .waiter s.post.next accepts [] false)] :=
      (List.append_assoc _ _ _).symm
    rw [hobservers] at ho
    rcases List.mem_append.mp ho with ho | ho
    · exact .inl ⟨o, ho, rfl, hkey⟩
    · obtain rfl := List.mem_singleton.mp ho
      obtain rfl := Option.some.inj hkey
      exact .inr ⟨Nat.le_refl _, Nat.lt_succ_self _⟩
  boxes hbelow key hkey := by
    have hkeys : (s.enter accepts).post.keys = s.post.keys ++ [s.post.next] := List.map_append
    rw [hkeys] at hkey
    rcases List.mem_append.mp hkey with hold | hnew
    · exact Nat.lt_succ_of_lt (hbelow key hold)
    · obtain rfl := List.mem_singleton.mp hnew
      exact Nat.lt_succ_self _
  futures f hf := by
    rcases List.mem_cons.mp hf with rfl | hf
    · exact .inr ⟨⟨Nat.le_refl _, Nat.lt_succ_self _⟩, Nat.le_refl _, Nat.lt_succ_self _⟩
    · exact .inl hf

theorem agrees_enter {s : Scene κ υ} (hs : Sound s) (accepts : List Event → Event → Bool) :
    ∃ l : Ledger, Agrees l (s.enter accepts).registry ∧ l.rounds = (s.enter accepts).rounds := by
  obtain ⟨l, hl, hrounds⟩ := hs.agrees
  exact ⟨_, hl.subscribe (h := s.detector.hub) (.waiter s.post.next accepts [] false), hrounds⟩

theorem grows_subscribe (s : Scene κ υ) (o : κ) :
    Grows s { s with detector := (s.detector.subscribe (.custom o)).1 } := by
  refine .of_subset (Nat.le_succ _) rfl (List.Subset.refl _) ?_ (List.Subset.refl _)
  intro o' ho' key hkey
  rcases List.mem_append.mp ho' with hother | hidle
  · exact ⟨o', List.mem_append_left _ hother, rfl, hkey⟩
  · rcases List.mem_append.mp hidle with hold | hnew
    · exact ⟨o', List.mem_append_right _ hold, rfl, hkey⟩
    · rw [List.mem_singleton.mp hnew] at hkey
      cases hkey

theorem grows_stop (s : Scene κ υ) :
    Grows s (s.stop (observerBehaviour custom)) := by
  obtain ⟨-, hnext, hkeys⟩ :=
    releaseAll_frame custom s.registry.idle s.detector.hub.world.cancel
  exact .of_observers_subset rfl hnext (hkeys ▸ List.Subset.refl _)
    (observers_subset rfl rfl (List.nil_subset _)) (List.Subset.refl _)

theorem grows_opens (s : Scene κ υ) (e : Event) :
    Grows s (s.opened e) := by
  refine .of_observers_subset rfl rfl (List.Subset.refl _) (fun o ho => ?_) (List.Subset.refl _)
  have hidle : o ∈ s.registry.idle := by
    simpa [observers, told, untold, registry, opened, Hub.takeBatch, Detector.withHub] using ho
  exact List.mem_append_right _ hidle

/-- All that a waiter can do when told: nothing if it has delivered, else it
asks its test and delivers what that accepts. -/
theorem waiterReaction_cases {b : Behaviour (Observer κ) (Control υ)}
    {nested : Event → Hub (Observer κ) (Control υ) → Option (Hub (Observer κ) (Control υ))}
    {key : Nat} {accepts : List Event → Event → Bool} {asked : List Event} {fired : Bool}
    {e : Event} {h h' : Hub (Observer κ) (Control υ)} {next : Observer κ}
    (hrun : Hub.runScript b nested (waiterReaction key accepts asked fired e) h = some (h', next)) :
    (fired = true ∧ h' = h ∧ next = .waiter key accepts asked true) ∨
      (fired = false ∧ accepts asked e = true ∧
        h' = { h with world := { h.world with post := h.world.post.deliver key e } } ∧
        next = .waiter key accepts (asked ++ [e]) true) ∨
      (fired = false ∧ accepts asked e = false ∧ h' = h ∧
        next = .waiter key accepts (asked ++ [e]) false) := by
  rw [runScript_waiterReaction] at hrun
  cases fired with
  | true =>
    obtain ⟨rfl, rfl⟩ := Prod.mk.inj (Option.some.inj hrun)
    exact .inl ⟨rfl, rfl, rfl⟩
  | false =>
    cases haccepts : accepts asked e with
    | true =>
      rw [haccepts] at hrun
      obtain ⟨rfl, rfl⟩ := Prod.mk.inj (Option.some.inj hrun)
      exact .inr (.inl ⟨rfl, rfl, rfl, rfl⟩)
    | false =>
      rw [haccepts] at hrun
      obtain ⟨rfl, rfl⟩ := Prod.mk.inj (Option.some.inj hrun)
      exact .inr (.inr ⟨rfl, rfl, rfl, rfl⟩)

/-- What a waiter that is told leaves alone. -/
theorem waiterReaction_frame {b : Behaviour (Observer κ) (Control υ)}
    {nested : Event → Hub (Observer κ) (Control υ) → Option (Hub (Observer κ) (Control υ))}
    {key : Nat} {accepts : List Event → Event → Bool} {asked : List Event} {fired : Bool}
    {e : Event} {h h' : Hub (Observer κ) (Control υ)} {next : Observer κ}
    (hrun : Hub.runScript b nested (waiterReaction key accepts asked fired e) h = some (h', next)) :
    h'.registry = h.registry ∧ h'.world.cancelled = h.world.cancelled ∧ next.key? = some key ∧
      h'.world.post.next = h.world.post.next ∧ h'.world.post.keys = h.world.post.keys ∧
      ∀ other, other ≠ key → h'.world.post.box? other = h.world.post.box? other := by
  rcases waiterReaction_cases hrun with ⟨-, rfl, rfl⟩ | ⟨-, -, rfl, rfl⟩ | ⟨-, -, rfl, rfl⟩
  · exact ⟨rfl, rfl, rfl, rfl, rfl, fun _ _ => rfl⟩
  · exact ⟨rfl, rfl, rfl, rfl, Post.keys_update _ _ _, fun _ hne => Post.box?_deliver_of_ne hne e⟩
  · exact ⟨rfl, rfl, rfl, rfl, rfl, fun _ _ => rfl⟩

theorem grows_tells {s : Scene κ υ} {e : Event} {told untold : List (ObserverId × Observer κ)}
    {id : ObserverId} {o next : Observer κ} {hub : Hub (Observer κ) (Control υ)}
    (h : s.telling = some ⟨e, told, (id, o) :: untold⟩) (hregistry : hub.registry = s.registry)
    (hpost : hub.world.post.next = s.post.next) (hkeys : hub.world.post.keys = s.post.keys)
    (hkey : ∀ key, next.key? = some key → o.key? = some key) :
    Grows s
      { s with
        detector := s.detector.withHub hub
        telling := some ⟨e, told ++ [(id, next)], untold⟩ } := by
  refine .of_subset (Nat.le_of_eq (congrArg _ hregistry.symm)) hpost (hkeys ▸ List.Subset.refl _) ?_
    (List.Subset.refl _)
  intro o' ho' key hkey'
  have hin : o' ∈ told ∨ o' = (id, next) ∨ o' ∈ untold ∨ o' ∈ s.registry.idle := by
    simpa [observers, Scene.told, Scene.untold, registry, Detector.withHub, hregistry, or_assoc]
      using ho'
  have hobservers : s.observers = told ++ (id, o) :: untold ++ s.registry.idle := by
    simp [observers, Scene.told, Scene.untold, h]
  rcases hin with hin | rfl | hin | hin
  · exact ⟨o', by simp [hobservers, hin], rfl, hkey'⟩
  · exact ⟨(id, o), by simp [hobservers], rfl, hkey key hkey'⟩
  · exact ⟨o', by simp [hobservers, hin], rfl, hkey'⟩
  · exact ⟨o', by simp [hobservers, hin], rfl, hkey'⟩

theorem agrees_tells {s : Scene κ υ} (hs : Sound s) {e : Event}
    {told untold : List (ObserverId × Observer κ)} {id : ObserverId} {o next : Observer κ}
    {hub : Hub (Observer κ) (Control υ)} (h : s.telling = some ⟨e, told, (id, o) :: untold⟩)
    (hregistry : hub.registry = s.registry) :
    let s' : Scene κ υ :=
      { s with
        detector := s.detector.withHub hub
        telling := some ⟨e, told ++ [(id, next)], untold⟩ }
    ∃ l : Ledger, Agrees l s'.registry ∧ l.rounds = s'.rounds := by
  obtain ⟨l, hl, hrounds⟩ := hs.agrees
  have hrounds' : l.rounds =
      [⟨idsOf (told ++ (id, o) :: untold), none, id :: idsOf untold⟩] := by
    rw [hrounds, rounds, h]
    rfl
  obtain ⟨hcalled, hcalling⟩ := hl.called hrounds'
  obtain ⟨hreturned, hreturning⟩ := hcalled.returned hcalling
  refine ⟨(l.note (.called id)).note (.returned id), ?_, ?_⟩
  · exact (congrArg (Agrees _) hregistry).mpr hreturned
  · simpa [rounds] using hreturning

/-- A batch is parted, and nothing of it lost. -/
theorem settle_perm (detached : List ObserverId) (batch : List (ObserverId × κ)) :
    ((Registry.settle detached batch).1 ++ (Registry.settle detached batch).2.1).Perm batch := by
  induction batch generalizing detached with
  | nil => exact .refl _
  | cons o rest ih =>
    rw [Registry.settle]
    split
    · exact List.perm_middle.trans ((ih _).cons o)
    · exact (ih _).cons o

/-- Who stays of a batch, and who goes. -/
theorem mem_settle {batch : List (ObserverId × κ)} {detached : List ObserverId}
    (hbatch : (idsOf batch).Nodup) (hdetached : detached.Nodup) (o : ObserverId × κ) :
    (o ∈ (Registry.settle detached batch).1 ↔ o ∈ batch ∧ o.1 ∉ detached) ∧
      (o ∈ (Registry.settle detached batch).2.1 ↔ o ∈ batch ∧ o.1 ∈ detached) := by
  have hkept : o ∈ (Registry.settle detached batch).1 ↔ o ∈ batch ∧ o.1 ∉ detached := by
    rw [(settle_eq hbatch hdetached).1]
    simp
  have hparts := settle_perm detached batch
  have hapart := (List.nodup_append.mp (hparts.nodup_iff.mpr hbatch.of_map)).2.2
  have hmem : o ∈ batch ↔
      o ∈ (Registry.settle detached batch).1 ∨ o ∈ (Registry.settle detached batch).2.1 := by
    rw [← hparts.mem_iff, List.mem_append]
  refine ⟨hkept, fun hgone => ?_, fun ⟨hin, hdet⟩ => ?_⟩
  · have hin := hmem.mpr (.inr hgone)
    refine ⟨hin, by_contra fun hnot => ?_⟩
    exact hapart o (hkept.mpr ⟨hin, hnot⟩) o hgone rfl
  · exact (hmem.mp hin).resolve_left fun hstays => (hkept.mp hstays).2 hdet

theorem grows_closes {s : Scene κ υ} {e : Event} {told : List (ObserverId × Observer κ)}
    (h : s.telling = some ⟨e, told, []⟩) :
    Grows s (s.closed (observerBehaviour custom) told) := by
  obtain ⟨-, hnext, hkeys⟩ := releaseAll_frame custom
    (Registry.settle s.registry.detached told).2.1 s.detector.hub.world
  refine .of_observers_subset rfl hnext (hkeys ▸ List.Subset.refl _) (fun o ho => ?_)
    (List.Subset.refl _)
  have hobservers : s.observers = told ++ s.registry.idle := by
    simp [observers, Scene.told, Scene.untold, h]
  have hin : o ∈ (Registry.settle s.registry.detached told).1 ++ s.registry.idle := ho
  rw [hobservers]
  rcases List.mem_append.mp hin with hkept | hidle
  · refine List.mem_append_left _ ((settle_perm s.registry.detached told).mem_iff.mp ?_)
    exact List.mem_append_left _ hkept
  · exact List.mem_append_right _ hidle

/-- Every step gives out numbers in order. -/
theorem Step.grows {s s' : Scene κ υ} {h : Happening}
    (hstep : Step (observerBehaviour custom) s h s') : Grows s s' := by
  cases hstep with
  | subscribe o => exact grows_subscribe s o
  | unsubscribe id => exact grows_remove custom s id
  | stop => exact grows_stop custom s
  | waitFor accepts =>
    rw [waitFor_eq]
    simp only
    split
    · exact (grows_enter s accepts).trans (grows_remove custom _ _)
    · exact grows_enter s accepts
  | poll _ => exact grows_poll custom s _ _
  | giveUp _ => exact grows_endWait custom s _ _
  | other d hregistry hpost _ =>
    exact .of_observers_subset (congrArg _ hregistry) (congrArg _ hpost)
      (hpost ▸ List.Subset.refl _)
      (observers_subset rfl rfl ((congrArg Registry.idle hregistry).symm ▸ List.Subset.refl _))
      (List.Subset.refl _)
  | opens e _ => exact grows_opens s e
  | tellsCustom next h =>
    exact grows_tells h rfl rfl rfl fun _ hkey => nomatch hkey
  | tellsWaiter h hrun =>
    obtain ⟨hregistry, -, hkey, hnext, hkeys, -⟩ := waiterReaction_frame hrun
    exact grows_tells h hregistry hnext hkeys fun _ heq => hkey.symm.trans heq
  | closes h => exact grows_closes custom h

/-- Every step keeps a scene sound. -/
theorem Step.sound {s s' : Scene κ υ} {h : Happening}
    (hstep : Step (observerBehaviour custom) s h s') (hs : Sound s) : Sound s' := by
  refine (hstep.grows custom).sound hs ?_
  obtain ⟨l, hl, hrounds⟩ := hs.agrees
  cases hstep with
  | subscribe o => exact ⟨_, hl.subscribe (h := s.detector.hub) (.custom o), hrounds⟩
  | unsubscribe id => exact agrees_remove custom hs id
  | stop =>
    exact ⟨_, hl.clear (h := { s.detector.hub with world := s.detector.hub.world.cancel }) _,
      hrounds⟩
  | waitFor accepts =>
    rw [waitFor_eq]
    simp only
    split
    · exact agrees_remove custom ((grows_enter s accepts).sound hs (agrees_enter hs accepts)) _
    · exact agrees_enter hs accepts
  | @poll id key _ =>
    rw [poll_eq]
    simp only
    split
    · exact ⟨l, hl, hrounds⟩
    · have hlook : Sound (s.withPost (s.post.poll key).1) :=
        (grows_withPost (Post.next_poll _ key)
          (Post.keys_poll s.post key ▸ List.Subset.refl _)).sound hs ⟨l, hl, hrounds⟩
      exact agrees_remove custom hlook id
  | giveUp _ => exact agrees_remove custom hs _
  | other d hregistry _ _ => exact ⟨l, (congrArg (Agrees l) hregistry).mpr hl, hrounds⟩
  | opens e h =>
    obtain ⟨hopened, hrounds'⟩ := hl.takeBatch (h := s.detector.hub) e
    have hnone : l.rounds = [] := by rw [hrounds, rounds, h]; rfl
    exact ⟨_, hopened, by rw [hrounds', hnone]; rfl⟩
  | tellsCustom next h => exact agrees_tells hs h rfl
  | tellsWaiter h hrun => exact agrees_tells hs h (waiterReaction_frame hrun).1
  | @closes e told h =>
    have hlast : l.rounds = [⟨idsOf told, none, []⟩] := by
      rw [hrounds, rounds, h]
      simp
    obtain ⟨hclosed, hnone⟩ := hl.mergeBatch (h := s.detector.hub) (observerBehaviour custom) hlast
    exact ⟨_, hclosed, hnone⟩

theorem Run.sound {s s' : Scene κ υ} {trace : List Happening}
    (hrun : Run (observerBehaviour custom) s trace s') (hs : Sound s) : Sound s' := by
  induction hrun with
  | nil => exact hs
  | snoc _ hstep ih => exact hstep.sound custom ih

theorem sound_ofPath (path : String) (user : υ) : Sound (ofPath path user : Scene κ υ) where
  agrees := ⟨Ledger.empty, .start, rfl⟩
  observers _ hkey := nomatch hkey
  boxes _ hkey := nomatch hkey
  futures _ hf := nomatch hf

namespace Sound

variable {s : Scene κ υ} {id : ObserverId}

theorem inFlight (hs : Sound s) : s.registry.inFlight = idsOf (s.told ++ s.untold) := by
  obtain ⟨l, hl, hrounds⟩ := hs.agrees
  rw [hl.inFlight, hrounds]
  cases htelling : s.telling <;> simp [rounds, told, untold, htelling]

theorem nodup (hs : Sound s) : (idsOf (s.told ++ s.untold) ++ idsOf s.registry.idle).Nodup := by
  obtain ⟨l, hl, -⟩ := hs.agrees
  rw [← hs.inFlight]
  exact hl.inOrder.imp Nat.ne_of_lt

/-- No two observers have one number. -/
theorem unique (hs : Sound s) {o o' : Observer κ} (ho : (id, o) ∈ s.observers)
    (ho' : (id, o') ∈ s.observers) : o = o' := by
  have hnodup := hs.nodup
  rw [← idsOf_append] at hnodup
  exact (Prod.mk.inj (List.inj_on_of_nodup_map hnodup ho ho' rfl)).2

theorem not_mem_idle (hs : Sound s) {o : Observer κ} (ho : (id, o) ∈ s.told ++ s.untold)
    (o' : Observer κ) : (id, o') ∉ s.registry.idle := fun ho' =>
  (List.nodup_append.mp hs.nodup).2.2 id (List.mem_map_of_mem ho) id (List.mem_map_of_mem ho') rfl

theorem not_mem_untold (hs : Sound s) {o : Observer κ} (ho : (id, o) ∈ s.told) (o' : Observer κ) :
    (id, o') ∉ s.untold := fun ho' => by
  have hnodup := (List.nodup_append.mp hs.nodup).1
  rw [idsOf_append] at hnodup
  exact (List.nodup_append.mp hnodup).2.2 id (List.mem_map_of_mem ho) id
    (List.mem_map_of_mem ho') rfl

theorem mem_inFlight (hs : Sound s) {o : Observer κ} (ho : (id, o) ∈ s.told ++ s.untold) :
    id ∈ s.registry.inFlight := hs.inFlight ▸ List.mem_map_of_mem ho

theorem not_mem_detached (hs : Sound s) {o : Observer κ} (ho : (id, o) ∈ s.registry.idle) :
    id ∉ s.registry.detached := by
  obtain ⟨l, hl, -⟩ := hs.agrees
  exact fun hdet => hl.not_mem_inFlight (List.mem_map_of_mem ho) (hl.detached hdet)

theorem lt_next (hs : Sound s) {o : Observer κ} (ho : (id, o) ∈ s.observers) :
    id < s.registry.next := by
  obtain ⟨l, hl, -⟩ := hs.agrees
  refine hl.below id ?_
  rw [hs.inFlight, ← idsOf_append]
  exact List.mem_map_of_mem ho

end Sound

/-- An observer with this number is registered: it is idle, or told and not
removed meanwhile. -/
def Has (s : Scene κ υ) (id : ObserverId) : Prop :=
  id ∈ idsOf s.registry.idle ∨ id ∈ s.registry.inFlight ∧ id ∉ s.registry.detached

theorem not_has_remove {s : Scene κ υ} {l : Ledger} (hl : Agrees l s.registry) (id : ObserverId) :
    ¬ (s.remove (observerBehaviour custom) id).Has id := by
  obtain ⟨-, hremoved⟩ := hl.unsubscribe (observerBehaviour custom) id
  have hdead : id ∉ (l.live.filter (· != id)) := by simp
  have hlive : l.live.filter (· != id) = _ := hremoved.live
  rw [hlive, List.mem_append, List.mem_filter] at hdead
  intro hhas
  rcases hhas with hidle | ⟨hfly, hdet⟩
  · exact hdead (.inr hidle)
  · exact hdead (.inl ⟨hfly, by simpa [remove, registry, Detector.unsubscribe] using hdet⟩)

/-- What lies in the box of a waiter that is removed. -/
theorem box?_remove {s : Scene κ υ} (hs : Sound s) {id : ObserverId} {o : Observer κ}
    (ho : (id, o) ∈ s.registry.idle) {key : Nat} (hkey : o.key? = some key) :
    (s.remove (observerBehaviour custom) id).post.box? key = (s.post.box? key).map Box.shut := by
  cases hfind : s.detector.hub.registry.idle.find? (·.1 == id) with
  | none => exact absurd (BEq.rfl (a := id)) (List.find?_eq_none.mp hfind _ ho)
  | some gone =>
    have hgone : gone.1 = id := by simpa using List.find?_some hfind
    obtain rfl : gone = (id, o) := by
      refine Prod.ext hgone (hs.unique ?_ (List.mem_append_right _ ho))
      exact hgone ▸ List.mem_append_right _ (List.mem_of_find?_eq_some hfind)
    have hpost : (s.remove (observerBehaviour custom) id).post =
        (Hub.releaseAll (observerBehaviour custom) [(id, o)] s.detector.hub.world).post := by
      simp [remove, post, Detector.unsubscribe, Hub.unsubscribe, hfind]
    rw [hpost, box?_releaseAll, if_pos (mem_mailboxes.mpr ⟨_, List.mem_singleton_self _, hkey⟩)]
    rfl

end Scene

end Runwatch.Telemetry
