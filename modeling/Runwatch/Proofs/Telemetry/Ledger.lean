/-
Runwatch.Proofs.Telemetry.Ledger — what the chronicle of a registry says.

A `Ledger` is kept from the entries of a chronicle. It says which observers are live,
and of each dispatch that is running with which observers it began, which
one it is calling and which ones it has still to call. It permits an entry or
not: a new number must be unused, an answer must be that of a plain set of
live observers, and a dispatch calls the next of those it has to call.

  §1 Ledger    — how it is kept, and what it permits.
  §2 Agreement — when the lists of a registry say what the ledger says
                 (`Agrees`), and what each operation makes of that.
  §3 Runs      — every run makes only permitted entries, and agrees behind
                 each of them (`keeps_ofRun`).

The invariant that carries it is the order of the numbers: those in flight
and then those idle are increasing, so that no number stands twice.
-/
import Mathlib.Data.List.Nodup
import Mathlib.Data.List.Perm.Basic
import Runwatch.Proofs.Telemetry.Chronicle

namespace Runwatch.Telemetry

variable {κ ω α β : Type}

/-- The numbers of observers. -/
def idsOf (observers : List (ObserverId × κ)) : List ObserverId := observers.map (·.1)

@[simp] theorem idsOf_nil : idsOf ([] : List (ObserverId × κ)) = [] := rfl

@[simp] theorem idsOf_cons (o : ObserverId × κ) (rest : List (ObserverId × κ)) :
    idsOf (o :: rest) = o.1 :: idsOf rest := rfl

@[simp] theorem idsOf_append (xs ys : List (ObserverId × κ)) :
    idsOf (xs ++ ys) = idsOf xs ++ idsOf ys := List.map_append

@[simp] theorem length_idsOf (xs : List (ObserverId × κ)) : (idsOf xs).length = xs.length :=
  List.length_map _

theorem idsOf_filter (p : ObserverId → Bool) (xs : List (ObserverId × κ)) :
    idsOf (xs.filter fun o => p o.1) = (idsOf xs).filter p := by
  rw [idsOf, idsOf, List.filter_map]
  rfl

/-- Numbers without one that is not among them. -/
theorem filter_ne_eq_self {ids : List ObserverId} {id : ObserverId} (h : id ∉ ids) :
    ids.filter (· != id) = ids := by
  rw [List.filter_eq_self]
  intro i hi
  exact bne_iff_ne.mpr fun heq => h (heq ▸ hi)

/-! ## §1 Ledger -/

/-- A dispatch that is running: the observers it began with, the one it is
calling, and those it has still to call. -/
structure Round where
  batch : List ObserverId
  current : Option ObserverId
  waiting : List ObserverId

/-- The least unused number, the live observers in the order in which they
subscribed, and the dispatches that are running, innermost first. -/
structure Ledger where
  next : ObserverId
  live : List ObserverId
  rounds : List Round

namespace Ledger

/-- No observers. -/
def empty : Ledger := ⟨0, [], []⟩

/-- The observers that a running dispatch began with. -/
def inside (l : Ledger) : List ObserverId := l.rounds.flatMap (·.batch)

/-- The live observers that no running dispatch began with. -/
def outside (l : Ledger) : List ObserverId := l.live.filter fun id => !l.inside.contains id

/-- The observers that are being called. -/
def busy (l : Ledger) : List ObserverId := l.rounds.filterMap (·.current)

/-- Changes the innermost dispatch. -/
def onRound (l : Ledger) (f : Round → Round) : Ledger :=
  match l.rounds with
  | round :: outer => { l with rounds := f round :: outer }
  | [] => l

@[simp] theorem next_onRound (l : Ledger) (f : Round → Round) : (l.onRound f).next = l.next := by
  unfold onRound
  split <;> rfl

@[simp] theorem live_onRound (l : Ledger) (f : Round → Round) : (l.onRound f).live = l.live := by
  unfold onRound
  split <;> rfl

/-- What an entry changes. A dispatch makes no observer live and none dead. -/
def note (l : Ledger) : Entry → Ledger
  | .subscribed id => { l with next := id + 1, live := l.live ++ [id] }
  | .unsubscribed id _ => { l with live := l.live.filter (· != id) }
  | .cleared => { l with live := [] }
  | .counted _ => l
  | .opened _ => { l with rounds := ⟨l.outside, none, l.outside⟩ :: l.rounds }
  | .called id => l.onRound fun round => ⟨round.batch, some id, round.waiting.tail⟩
  | .returned _ => l.onRound fun round => { round with current := none }
  | .closed => { l with rounds := l.rounds.tail }

/-- The ledger behind entries. -/
def notes (l : Ledger) (entries : List Entry) : Ledger := entries.foldl note l

/-- The ledger of entries from the beginning on. -/
def ofEntries (entries : List Entry) : Ledger := empty.notes entries

@[simp] theorem notes_nil (l : Ledger) : l.notes [] = l := rfl

@[simp] theorem notes_cons (l : Ledger) (entry : Entry) (entries : List Entry) :
    l.notes (entry :: entries) = (l.note entry).notes entries := rfl

theorem notes_append (l : Ledger) (xs ys : List Entry) :
    l.notes (xs ++ ys) = (l.notes xs).notes ys := List.foldl_append

/-- Which entry may come next. -/
def Permits (l : Ledger) : Entry → Prop
  | .subscribed id => id = l.next
  | .unsubscribed id removed => removed = l.live.contains id
  | .counted n => n = l.live.length
  | .called id => ∃ batch waiting outer, l.rounds = ⟨batch, none, id :: waiting⟩ :: outer
  | .returned id => ∃ batch waiting outer, l.rounds = ⟨batch, some id, waiting⟩ :: outer
  | .closed => ∃ batch outer, l.rounds = ⟨batch, none, []⟩ :: outer
  | .cleared => True
  | .opened _ => True

end Ledger

/-! ## §2 Agreement -/

/-- What is left is the same up to its order. -/
theorem swapRemove_perm {ids : List ObserverId} {place : Nat} (hplace : place < ids.length) :
    (swapRemove ids place).Perm (ids.eraseIdx place) := by
  obtain ⟨front, last, rfl⟩ : ∃ front last, ids = front ++ [last] :=
    List.eq_nil_or_concat' ids |>.resolve_left (by rintro rfl; simp at hplace)
  have hlast : (front ++ [last]).getLast? = some last := by simp
  simp only [swapRemove, hlast]
  by_cases hfront : place < front.length
  · rw [List.set_append_left _ _ hfront, List.dropLast_concat,
      List.eraseIdx_append_of_lt_length hfront]
    exact (List.set_perm_cons_eraseIdx hfront last).trans (List.perm_append_singleton _ _).symm
  · have hend : place = front.length := by
      rw [List.length_append, List.length_singleton] at hplace
      omega
    simp [hend, List.set_append_right, List.eraseIdx_append_of_length_le]

/-- Of a batch those stay that were not removed, and what is left of the
removed ones are those outside the batch. -/
theorem settle_eq {batch : List (ObserverId × κ)} {detached : List ObserverId}
    (hbatch : (idsOf batch).Nodup) (hdetached : detached.Nodup) :
    (Registry.settle detached batch).1 = (batch.filter fun o => !detached.contains o.1) ∧
      (Registry.settle detached batch).2.2.Perm
        (detached.filter fun id => !(idsOf batch).contains id) := by
  induction batch generalizing detached with
  | nil => simp [Registry.settle]
  | cons o rest ih =>
    obtain ⟨hnot, hrest⟩ := List.nodup_cons.mp hbatch
    rw [Registry.settle]
    cases hplace : detached.idxOf? o.1 with
    | none =>
      have ho : o.1 ∉ detached := List.idxOf?_eq_none_iff.mp hplace
      obtain ⟨hkept, hleft⟩ := ih hrest hdetached
      refine ⟨by simp [hkept, ho], hleft.trans (List.Perm.of_eq ?_)⟩
      refine List.filter_congr fun id hid => ?_
      have hne : id ≠ o.1 := fun heq => ho (heq ▸ hid)
      simp [hne]
    | some place =>
      have ho : o.1 ∈ detached := by
        rw [← not_not (a := o.1 ∈ detached), ← List.idxOf?_eq_none_iff, hplace]
        simp
      obtain ⟨hlt, -⟩ := List.idxOf?_eq_some_iff.mp hplace
      -- Striking the number off by its place leaves the others.
      have hothers : (swapRemove detached place).Perm (detached.filter (· != o.1)) := by
        refine (swapRemove_perm hlt).trans (List.Perm.of_eq ?_)
        rw [← hdetached.erase_eq_filter, List.erase_eq_eraseIdx, hplace]
      obtain ⟨hkept, hleft⟩ := ih hrest (hothers.nodup_iff.mpr (hdetached.filter _))
      refine ⟨?_, ?_⟩
      · simp only [hkept]
        rw [List.filter_cons_of_neg (by simpa using ho)]
        refine List.filter_congr fun other hother => ?_
        have hmem : other.1 ∈ idsOf rest := List.mem_map_of_mem hother
        have hne : other.1 ≠ o.1 := fun heq => hnot (by rwa [heq] at hmem)
        simp [hothers.mem_iff, hne]
      · refine hleft.trans ((hothers.filter _).trans (List.Perm.of_eq ?_))
        rw [List.filter_filter]
        refine List.filter_congr fun id _ => ?_
        rw [Bool.eq_iff_iff]
        simp [and_comm]

/-- The lists of a registry say what a ledger says. -/
structure Agrees (l : Ledger) (r : Registry κ) : Prop where
  next : r.next = l.next
  inFlight : r.inFlight = l.rounds.reverse.flatMap (·.batch)
  inOrder : (r.inFlight ++ idsOf r.idle).Pairwise (· < ·)
  below : ∀ id ∈ r.inFlight ++ idsOf r.idle, id < r.next
  live : l.live = (r.inFlight.filter fun id => !r.detached.contains id) ++ idsOf r.idle
  distinct : r.detached.Nodup
  detached : r.detached ⊆ r.inFlight
  rounds : ∀ round ∈ l.rounds, (round.current.toList ++ round.waiting).Sublist round.batch

namespace Agrees

variable {l : Ledger} {r : Registry κ} {h : Hub κ ω}

theorem start : Agrees Ledger.empty (Registry.empty : Registry κ) where
  next := rfl
  inFlight := rfl
  inOrder := .nil
  below := by simp [Registry.empty]
  live := rfl
  distinct := .nil
  detached := List.nil_subset _
  rounds := by simp [Ledger.empty]

theorem mem_inside (ha : Agrees l r) {id : ObserverId} : id ∈ l.inside ↔ id ∈ r.inFlight := by
  simp [ha.inFlight, Ledger.inside]

theorem not_mem_inFlight (ha : Agrees l r) {id : ObserverId} (hid : id ∈ idsOf r.idle) :
    id ∉ r.inFlight := fun hfly =>
  Nat.lt_irrefl id ((List.pairwise_append.mp ha.inOrder).2.2 id hfly id hid)

theorem nodup_inFlight (ha : Agrees l r) : r.inFlight.Nodup :=
  (List.pairwise_append.mp ha.inOrder).1.imp Nat.ne_of_lt

theorem nodup_idle (ha : Agrees l r) : (idsOf r.idle).Nodup :=
  (List.pairwise_append.mp ha.inOrder).2.1.imp Nat.ne_of_lt

/-- The live observers are in the order of their numbers. -/
theorem live_inOrder (ha : Agrees l r) : l.live.Pairwise (· < ·) := by
  rw [ha.live]
  exact ha.inOrder.sublist (List.Sublist.append List.filter_sublist (List.Sublist.refl _))

theorem lt_next_of_mem_live (ha : Agrees l r) {id : ObserverId} (hid : id ∈ l.live) :
    id < l.next := by
  rw [← ha.next]
  rw [ha.live, List.mem_append, List.mem_filter] at hid
  exact ha.below id (List.mem_append.mpr (hid.imp_left And.left))

/-- Those that a dispatch finds idle are those that are live and that no
running dispatch began with. -/
theorem outside (ha : Agrees l r) : l.outside = idsOf r.idle := by
  have hflying : ((r.inFlight.filter fun id => !r.detached.contains id).filter
      fun id => !l.inside.contains id) = [] := by
    rw [List.filter_eq_nil_iff]
    intro id hid
    simpa using ha.mem_inside.mpr (List.mem_of_mem_filter hid)
  have hidle : ((idsOf r.idle).filter fun id => !l.inside.contains id) = idsOf r.idle := by
    rw [List.filter_eq_self]
    intro id hid
    simpa using fun hin => ha.not_mem_inFlight hid (ha.mem_inside.mp hin)
  rw [Ledger.outside, ha.live, List.filter_append, hflying, hidle, List.nil_append]

/-- What a registry counts is what is live, and the difference that it takes
is one. -/
theorem count (ha : Agrees l r) :
    r.detached.length ≤ r.idle.length + r.inFlight.length ∧ r.count = l.live.length := by
  -- Those in flight that are not live are the removed ones, each of them once.
  have hperm : (r.inFlight.filter fun id => r.detached.contains id).Perm r.detached := by
    rw [List.perm_ext_iff_of_nodup (ha.nodup_inFlight.filter _) ha.distinct]
    intro id
    simpa using fun hid => ha.detached hid
  have hparts := List.length_eq_length_filter_add (l := r.inFlight)
    fun id => r.detached.contains id
  have hlive : l.live.length
      = (r.inFlight.filter fun id => !r.detached.contains id).length + r.idle.length := by
    rw [ha.live, List.length_append, length_idsOf]
  rw [hperm.length_eq] at hparts
  rw [Registry.count]
  omega

theorem subscribe (ha : Agrees l h.registry) (observer : κ) :
    Agrees (l.note (.subscribed (h.subscribe observer).2)) (h.subscribe observer).1.registry where
  next := by simp [Hub.subscribe, Registry.subscribe, Ledger.note]
  inFlight := ha.inFlight
  inOrder := by
    simp only [Hub.subscribe, Registry.subscribe, idsOf_append, idsOf_cons, idsOf_nil]
    rw [← List.append_assoc]
    refine List.pairwise_append.mpr ⟨ha.inOrder, List.pairwise_singleton _ _, ?_⟩
    intro id hid new hnew
    rw [List.mem_singleton.mp hnew]
    exact ha.below id hid
  below := by
    simp only [Hub.subscribe, Registry.subscribe, idsOf_append, idsOf_cons, idsOf_nil]
    intro id hid
    rw [← List.append_assoc, List.mem_append, List.mem_singleton] at hid
    cases hid with
    | inl hold => exact Nat.lt_succ_of_lt (ha.below id hold)
    | inr hnew => exact hnew ▸ Nat.lt_succ_self _
  live := by
    simp [Hub.subscribe, Registry.subscribe, Ledger.note, ha.live]
  distinct := ha.distinct
  detached := ha.detached
  rounds := ha.rounds

/-- An answer tells whether the observer was live. -/
theorem unsubscribe (ha : Agrees l h.registry) (b : Behaviour κ ω) (id : ObserverId) :
    (h.unsubscribe b id).2 = l.live.contains id ∧
      Agrees (l.note (.unsubscribed id (h.unsubscribe b id).2))
        (h.unsubscribe b id).1.registry := by
  have hmem : id ∈ l.live ↔
      (id ∈ h.registry.inFlight ∧ id ∉ h.registry.detached) ∨ id ∈ idsOf h.registry.idle := by
    simp [ha.live]
  rw [Hub.unsubscribe]
  cases hfind : h.registry.idle.find? (·.1 == id) with
  | some gone =>
    have hgone : gone.1 = id := by simpa using List.find?_some hfind
    have hidle : id ∈ idsOf h.registry.idle :=
      hgone ▸ List.mem_map_of_mem (List.mem_of_find?_eq_some hfind)
    have herase : idsOf (h.registry.idle.eraseP (·.1 == id))
        = (idsOf h.registry.idle).filter (· != id) := by
      rw [← ha.nodup_idle.erase_eq_filter, List.erase_eq_eraseP, idsOf, idsOf, List.eraseP_map]
      simp [Function.comp_def, BEq.comm]
    have hsub : (h.registry.inFlight ++ idsOf (h.registry.idle.eraseP (·.1 == id))).Sublist
        (h.registry.inFlight ++ idsOf h.registry.idle) := by
      rw [herase]
      exact (List.Sublist.refl _).append List.filter_sublist
    refine ⟨by simp [hmem, hidle], ?_⟩
    exact {
      next := ha.next
      inFlight := ha.inFlight
      inOrder := ha.inOrder.sublist hsub
      below := fun i hi => ha.below i (hsub.subset hi)
      live := by
        have hkept : ((h.registry.inFlight.filter fun i => !h.registry.detached.contains i).filter
            (· != id)) = h.registry.inFlight.filter fun i => !h.registry.detached.contains i :=
          filter_ne_eq_self fun hin => ha.not_mem_inFlight hidle (List.mem_of_mem_filter hin)
        simp only [Ledger.note, ha.live, List.filter_append, hkept, herase]
      distinct := ha.distinct
      detached := ha.detached
      rounds := ha.rounds }
  | none =>
    have hnot : id ∉ idsOf h.registry.idle := by
      intro hin
      obtain ⟨o, ho, hoid⟩ := List.mem_map.mp hin
      exact List.find?_eq_none.mp hfind o ho (beq_iff_eq.mpr hoid)
    have hidle := filter_ne_eq_self hnot
    by_cases hfly : id ∈ h.registry.inFlight ∧ id ∉ h.registry.detached
    · rw [if_pos (by simpa using hfly)]
      refine ⟨by simp [hmem, hfly], ?_⟩
      exact {
        next := ha.next
        inFlight := ha.inFlight
        inOrder := ha.inOrder
        below := ha.below
        live := by
          simp only [Ledger.note, ha.live, List.filter_append, hidle, List.filter_filter]
          congr 1
          refine List.filter_congr fun i _ => ?_
          rw [Bool.eq_iff_iff]
          simp [and_comm]
        distinct := by
          refine List.nodup_append.mpr ⟨ha.distinct, List.nodup_singleton _, ?_⟩
          intro i hi j hj heq
          exact hfly.2 (List.mem_singleton.mp hj ▸ heq ▸ hi)
        detached := List.append_subset.mpr ⟨ha.detached, by simpa using hfly.1⟩
        rounds := ha.rounds }
    · rw [if_neg (by simpa using hfly)]
      have hdead : id ∉ l.live := by
        rw [hmem, not_or]
        exact ⟨hfly, hnot⟩
      have hsame : l.note (.unsubscribed id false) = l := by
        rw [Ledger.note, filter_ne_eq_self hdead]
      exact ⟨by simpa using hdead, hsame.symm ▸ ha⟩

theorem clear (ha : Agrees l h.registry) (b : Behaviour κ ω) :
    Agrees (l.note .cleared) (h.clear b).registry where
  next := ha.next
  inFlight := ha.inFlight
  inOrder := by simpa [Hub.clear] using (List.pairwise_append.mp ha.inOrder).1
  below := by
    intro id hid
    simp only [Hub.clear, idsOf_nil, List.append_nil] at hid
    exact ha.below id (List.mem_append_left _ hid)
  live := by
    simp [Hub.clear, Ledger.note]
  distinct := ha.nodup_inFlight
  detached := List.Subset.refl _
  rounds := ha.rounds

/-- A dispatch begins with those that are idle. -/
theorem takeBatch (ha : Agrees l h.registry) (e : Event) :
    Agrees (l.note (.opened e)) h.takeBatch.1.registry ∧
      (l.note (.opened e)).rounds
        = ⟨idsOf h.takeBatch.2, none, idsOf h.takeBatch.2⟩ :: l.rounds := by
  have hnew : (l.note (.opened e)).rounds
      = ⟨idsOf h.registry.idle, none, idsOf h.registry.idle⟩ :: l.rounds := by
    rw [Ledger.note, ha.outside]
  refine ⟨?_, hnew⟩
  exact {
    next := ha.next
    inFlight := by
      rw [hnew]
      simp [Hub.takeBatch, ha.inFlight, idsOf]
    inOrder := by simpa [Hub.takeBatch, idsOf] using ha.inOrder
    below := by simpa [Hub.takeBatch, idsOf] using ha.below
    live := by
      -- Nobody that is idle was removed.
      have hidle : ((idsOf h.registry.idle).filter fun id => !h.registry.detached.contains id)
          = idsOf h.registry.idle := by
        rw [List.filter_eq_self]
        intro id hid
        simpa using fun hdet => ha.not_mem_inFlight hid (ha.detached hdet)
      have htaken : h.takeBatch.1.registry.inFlight
          = h.registry.inFlight ++ idsOf h.registry.idle := rfl
      have hleft : idsOf h.takeBatch.1.registry.idle = [] := rfl
      rw [htaken, hleft, List.append_nil, List.filter_append]
      exact ha.live.trans (congrArg _ hidle.symm)
    distinct := ha.distinct
    detached := fun id hid => List.mem_append_left _ (ha.detached hid)
    rounds := by
      rw [hnew]
      intro round hround
      cases List.mem_cons.mp hround with
      | inl hfirst => exact hfirst ▸ List.Sublist.refl _
      | inr hold => exact ha.rounds round hold }

/-- A call and its end change nothing at the registry. -/
theorem onRound (ha : Agrees l r) {round : Round} {outer : List Round} {f : Round → Round}
    (hrounds : l.rounds = round :: outer) (hbatch : (f round).batch = round.batch)
    (hcalls : ((f round).current.toList ++ (f round).waiting).Sublist (f round).batch) :
    Agrees (l.onRound f) r := by
  rw [Ledger.onRound, hrounds]
  exact {
    next := ha.next
    inFlight := by simp [ha.inFlight, hrounds, hbatch]
    inOrder := ha.inOrder
    below := ha.below
    live := ha.live
    distinct := ha.distinct
    detached := ha.detached
    rounds := by
      intro other hother
      cases List.mem_cons.mp hother with
      | inl hfirst => exact hfirst ▸ hcalls
      | inr hold => exact ha.rounds other (hrounds ▸ List.mem_cons_of_mem _ hold) }

/-- The next observer of a batch is called. -/
theorem called (ha : Agrees l r) {batch waiting : List ObserverId} {id : ObserverId}
    {outer : List Round} (hrounds : l.rounds = ⟨batch, none, id :: waiting⟩ :: outer) :
    Agrees (l.note (.called id)) r ∧
      (l.note (.called id)).rounds = ⟨batch, some id, waiting⟩ :: outer := by
  have hcalls := ha.rounds ⟨batch, none, id :: waiting⟩ (hrounds ▸ List.mem_cons_self)
  exact ⟨ha.onRound hrounds rfl hcalls, by simp [Ledger.note, Ledger.onRound, hrounds]⟩

/-- It is done. -/
theorem returned (ha : Agrees l r) {batch waiting : List ObserverId} {id : ObserverId}
    {outer : List Round} (hrounds : l.rounds = ⟨batch, some id, waiting⟩ :: outer) :
    Agrees (l.note (.returned id)) r ∧
      (l.note (.returned id)).rounds = ⟨batch, none, waiting⟩ :: outer := by
  have hcalls := ha.rounds ⟨batch, some id, waiting⟩ (hrounds ▸ List.mem_cons_self)
  have hwaiting : waiting.Sublist batch := (List.sublist_cons_self id waiting).trans hcalls
  exact ⟨ha.onRound hrounds rfl hwaiting, by simp [Ledger.note, Ledger.onRound, hrounds]⟩

/-- A dispatch ends: those of its batch that are live are idle again, in
front of those that subscribed meanwhile. -/
theorem mergeBatch (ha : Agrees l h.registry) (b : Behaviour κ ω) {batch : List (ObserverId × κ)}
    {outer : List Round} (hrounds : l.rounds = ⟨idsOf batch, none, []⟩ :: outer) :
    Agrees (l.note .closed) (h.mergeBatch b batch).registry ∧
      (l.note .closed).rounds = outer := by
  have houter : (l.note .closed).rounds = outer := by simp [Ledger.note, hrounds]
  refine ⟨?_, houter⟩
  have hfly : h.registry.inFlight = outer.reverse.flatMap (·.batch) ++ idsOf batch := by
    simp [ha.inFlight, hrounds]
  -- The batch stands behind those of the outer dispatches, each number once.
  have hapart : ∀ id ∈ outer.reverse.flatMap (·.batch), id ∉ idsOf batch := by
    have hnodup := ha.nodup_inFlight
    rw [hfly] at hnodup
    exact fun id hid hin => (List.nodup_append.mp hnodup).2.2 id hid id hin rfl
  have hdistinct : (idsOf batch).Nodup := by
    have hnodup := ha.nodup_inFlight
    rw [hfly] at hnodup
    exact (List.nodup_append.mp hnodup).2.1
  obtain ⟨hkept, hleft⟩ := settle_eq hdistinct ha.distinct
  have hflight : (h.mergeBatch b batch).registry.inFlight = outer.reverse.flatMap (·.batch) := by
    have hany : ∀ id, (batch.any (·.1 == id)) = (idsOf batch).contains id := by
      intro id
      rw [Bool.eq_iff_iff]
      simp [idsOf]
    simp only [Hub.mergeBatch, hany, hfly, List.filter_append]
    have hearly : ((outer.reverse.flatMap (·.batch)).filter fun id => !(idsOf batch).contains id)
        = outer.reverse.flatMap (·.batch) := by
      rw [List.filter_eq_self]
      intro id hid
      simpa using hapart id hid
    rw [hearly, List.filter_eq_nil_iff.mpr (by simp), List.append_nil]
  have hidle : idsOf (h.mergeBatch b batch).registry.idle
      = ((idsOf batch).filter fun id => !h.registry.detached.contains id)
        ++ idsOf h.registry.idle := by
    simp only [Hub.mergeBatch, idsOf_append, hkept]
    rw [idsOf_filter fun id => !h.registry.detached.contains id]
  have hdetached : (h.mergeBatch b batch).registry.detached.Perm
      (h.registry.detached.filter fun id => !(idsOf batch).contains id) := hleft
  have hnext : (h.mergeBatch b batch).registry.next = h.registry.next := rfl
  generalize (h.mergeBatch b batch).registry = merged at *
  have hsub : (merged.inFlight ++ idsOf merged.idle).Sublist
      (h.registry.inFlight ++ idsOf h.registry.idle) := by
    rw [hflight, hidle, hfly, List.append_assoc]
    exact (List.Sublist.refl _).append (List.filter_sublist.append (List.Sublist.refl _))
  exact {
    next := hnext.trans ha.next
    inFlight := by rw [hflight, houter]
    inOrder := ha.inOrder.sublist hsub
    below := fun id hid => hnext ▸ ha.below id (hsub.subset hid)
    live := by
      have hearly : ((outer.reverse.flatMap (·.batch)).filter fun id =>
            !h.registry.detached.contains id)
          = (outer.reverse.flatMap (·.batch)).filter fun id => !merged.detached.contains id := by
        refine List.filter_congr fun id hid => ?_
        simp [hdetached.mem_iff, hapart id hid]
      rw [hflight, hidle, ← hearly, ← List.append_assoc, ← List.filter_append, ← hfly]
      exact ha.live
    distinct := hdetached.nodup_iff.mpr (ha.distinct.filter _)
    detached := by
      intro id hid
      obtain ⟨hdet, hnot⟩ := List.mem_filter.mp (hdetached.mem_iff.mp hid)
      have hin := hfly ▸ ha.detached hdet
      rw [hflight]
      exact (List.mem_append.mp hin).resolve_right (by simpa using hnot)
    rounds := by
      rw [houter]
      exact fun round hround => ha.rounds round (hrounds ▸ List.mem_cons_of_mem _ hround) }

end Agrees

/-! ## §3 Runs -/

/-- The entries are permitted one after the other, and the registry agrees
behind each of them. -/
def Follows : Ledger → List (Moment κ) → Prop
  | _, [] => True
  | l, m :: rest =>
    l.Permits m.entry ∧ Agrees (l.note m.entry) m.registry ∧ Follows (l.note m.entry) rest

theorem Follows.append {l : Ledger} {xs ys : List (Moment κ)} :
    Follows l (xs ++ ys) ↔ Follows l xs ∧ Follows (l.notes (xs.map (·.entry))) ys := by
  induction xs generalizing l with
  | nil => simp [Follows]
  | cons m rest ih => simp only [List.cons_append, Follows, ih, List.map_cons, Ledger.notes_cons,
      and_assoc]

/-- What is permitted in front of an entry, and what agrees behind it. -/
theorem Follows.middle {l : Ledger} {before after : List (Moment κ)} {m : Moment κ}
    (h : Follows l (before ++ m :: after)) :
    (l.notes (before.map (·.entry))).Permits m.entry ∧
      Agrees ((l.notes (before.map (·.entry))).note m.entry) m.registry ∧
      Follows ((l.notes (before.map (·.entry))).note m.entry) after :=
  (Follows.append.mp h).2

/-- In front of every entry some registry agrees. -/
theorem Follows.agrees {l : Ledger} {r : Registry κ} {moments : List (Moment κ)}
    (h : Follows l moments) (ha : Agrees l r) :
    ∃ r' : Registry κ, Agrees (l.notes (moments.map (·.entry))) r' := by
  induction moments generalizing l r with
  | nil => exact ⟨r, ha⟩
  | cons m rest ih => exact ih h.2.2 h.2.1

/-- Numbers are given out in order. -/
theorem Follows.subscribed {l : Ledger} {moments : List (Moment κ)} (h : Follows l moments) :
    l.next ≤ (l.notes (moments.map (·.entry))).next ∧
      ∀ id, .subscribed id ∈ moments.map (·.entry) →
        l.next ≤ id ∧ id < (l.notes (moments.map (·.entry))).next := by
  induction moments generalizing l with
  | nil => exact ⟨Nat.le_refl _, fun _ hid => nomatch hid⟩
  | cons m rest ih =>
    obtain ⟨hpermits, -, hrest⟩ := h
    obtain ⟨hmono, hlater⟩ := ih hrest
    have hstep : l.next ≤ (l.note m.entry).next := by
      cases hm : m.entry with
      | subscribed id =>
        rw [hm] at hpermits
        exact hpermits ▸ Nat.le_succ _
      | called id | returned id => exact Nat.le_of_eq (Ledger.next_onRound _ _).symm
      | unsubscribed id removed | cleared | counted n | opened e | closed => exact Nat.le_refl _
    refine ⟨Nat.le_trans hstep hmono, fun id hid => ?_⟩
    rw [List.map_cons, List.mem_cons] at hid
    cases hid with
    | inl hfirst =>
      rw [List.map_cons, Ledger.notes_cons, ← hfirst]
      rw [← hfirst] at hpermits hmono
      exact ⟨Nat.le_of_eq hpermits.symm, hmono⟩
    | inr hid => exact ⟨Nat.le_trans hstep (hlater id hid).1, (hlater id hid).2⟩

/-- What has a number and is not live does not become live. -/
theorem Follows.dead {l : Ledger} {moments : List (Moment κ)} (h : Follows l moments)
    {id : ObserverId} (hid : id < l.next) (hdead : id ∉ l.live) :
    id ∉ (l.notes (moments.map (·.entry))).live := by
  induction moments generalizing l with
  | nil => exact hdead
  | cons m rest ih =>
    obtain ⟨hpermits, -, hrest⟩ := h
    have hlater : id < (l.note m.entry).next ∧ id ∉ (l.note m.entry).live := by
      cases hm : m.entry with
      | subscribed new =>
        rw [hm] at hpermits
        obtain rfl : new = l.next := hpermits
        refine ⟨Nat.lt_succ_of_lt hid, ?_⟩
        simp only [Ledger.note, List.mem_append, List.mem_singleton, not_or]
        exact ⟨hdead, Nat.ne_of_lt hid⟩
      | unsubscribed gone removed =>
        exact ⟨hid, fun hin => hdead (List.mem_of_mem_filter hin)⟩
      | cleared => exact ⟨hid, List.not_mem_nil⟩
      | called i | returned i =>
        rw [Ledger.note, Ledger.next_onRound, Ledger.live_onRound]
        exact ⟨hid, hdead⟩
      | counted n | opened e | closed => exact ⟨hid, hdead⟩
    exact ih hrest hlater.1 hlater.2

namespace Chronicle

/-- A run follows a ledger, and if it ends then with what `post` says. -/
structure Keeps (c : Chronicle κ α) (l : Ledger) (post : α → Ledger → Prop) : Prop where
  follows : Follows l c.moments
  ends : ∀ a, c.result = some a → post a (l.notes c.entries)

theorem Keeps.ended {l : Ledger} {a : α} {post : α → Ledger → Prop} (h : post a l) :
    (Chronicle.ended a : Chronicle κ α).Keeps l post where
  follows := trivial
  ends := fun _ heq => Option.some.inj heq ▸ h

theorem Keeps.note {c : Chronicle κ α} {l : Ledger} {entry : Entry} {r : Registry κ}
    {post : α → Ledger → Prop} (hpermits : l.Permits entry) (ha : Agrees (l.note entry) r)
    (h : c.Keeps (l.note entry) post) : (c.note entry r).Keeps l post where
  follows := ⟨hpermits, ha, h.follows⟩
  ends := h.ends

theorem Keeps.bind {c : Chronicle κ α} {f : α → Chronicle κ β} {l : Ledger}
    {mid : α → Ledger → Prop} {post : β → Ledger → Prop} (h : c.Keeps l mid)
    (hf : ∀ a l', mid a l' → (f a).Keeps l' post) : (c.bind f).Keeps l post := by
  cases hresult : c.result with
  | none =>
    have hbind : c.bind f = ⟨c.moments, none⟩ := by simp [Chronicle.bind, hresult]
    rw [hbind]
    exact ⟨h.follows, fun _ heq => nomatch heq⟩
  | some a =>
    have hbind : c.bind f = ⟨c.moments ++ (f a).moments, (f a).result⟩ := by
      simp [Chronicle.bind, hresult]
    have hnext := hf a _ (h.ends a hresult)
    rw [hbind]
    refine ⟨Follows.append.mpr ⟨h.follows, hnext.follows⟩, fun b hb => ?_⟩
    simpa [entries, Ledger.notes_append] using hnext.ends b hb

/-- Behind a script or a dispatch the same dispatches are running as in
front of it. -/
def Resumes (rounds : List Round) (h : Hub κ ω) (l : Ledger) : Prop :=
  Agrees l h.registry ∧ l.rounds = rounds

variable {b : Behaviour κ ω} {nested : Event → Hub κ ω → Chronicle κ (Hub κ ω)}

theorem keeps_ofScript
    (hnested : ∀ e h l, Agrees l h.registry → (nested e h).Keeps l (Resumes l.rounds))
    (script : Script κ ω) {h : Hub κ ω} {l : Ledger} (ha : Agrees l h.registry) :
    (ofScript b nested script h).Keeps l fun out => Resumes l.rounds out.1 := by
  induction script generalizing h l with
  | done next => exact .ended ⟨ha, rfl⟩
  | subscribe observer k ih =>
    have hid : (h.subscribe observer).2 = l.next := ha.next
    exact .note hid (ha.subscribe observer) (ih _ (ha.subscribe observer))
  | unsubscribe id k ih =>
    obtain ⟨hanswer, hagrees⟩ := ha.unsubscribe b id
    exact .note hanswer hagrees (ih _ hagrees)
  | clear k ih => exact .note trivial (ha.clear b) (ih (ha.clear b))
  | count k ih => exact .note ha.count.2 ha (ih _ ha)
  | dispatch e k ih =>
    refine (hnested e h l ha).bind fun h' l' hmid => ?_
    rw [← hmid.2]
    exact ih hmid.1
  | act f k ih => exact ih _ ha

theorem keeps_ofBatch
    (hnested : ∀ e h l, Agrees l h.registry → (nested e h).Keeps l (Resumes l.rounds))
    (e : Event) (rest : List (ObserverId × κ)) {h : Hub κ ω} {l : Ledger}
    {batch : List ObserverId} {outer : List Round} (ha : Agrees l h.registry)
    (hrounds : l.rounds = ⟨batch, none, idsOf rest⟩ :: outer) :
    (ofBatch b nested e rest h).Keeps l fun out l' =>
      Resumes (⟨batch, none, []⟩ :: outer) out.1 l' ∧ idsOf out.2 = idsOf rest := by
  induction rest generalizing h l with
  | nil => exact .ended ⟨⟨ha, hrounds⟩, rfl⟩
  | cons o rest ih =>
    obtain ⟨hcalled, hcalling⟩ := ha.called hrounds
    refine .note ⟨batch, idsOf rest, outer, hrounds⟩ hcalled ?_
    refine (keeps_ofScript hnested (b.react o.2 e) hcalled).bind fun out l' hmid => ?_
    have hcalling' : l'.rounds = ⟨batch, some o.1, idsOf rest⟩ :: outer := hmid.2.trans hcalling
    obtain ⟨hreturned, hwaiting⟩ := hmid.1.returned hcalling'
    refine .note ⟨batch, idsOf rest, outer, hcalling'⟩ hreturned ?_
    refine (ih hreturned hwaiting).bind fun out' l'' hlater => ?_
    exact .ended ⟨hlater.1, by simp [hlater.2]⟩

theorem keeps_ofDispatch (depth : Nat) (e : Event) (h : Hub κ ω) (l : Ledger)
    (ha : Agrees l h.registry) : (ofDispatch b depth e h).Keeps l (Resumes l.rounds) := by
  induction depth generalizing e h l with
  | zero => exact ⟨trivial, fun _ heq => nomatch heq⟩
  | succ depth ih =>
    obtain ⟨hopened, hround⟩ := ha.takeBatch e
    refine .note trivial hopened ?_
    refine (keeps_ofBatch ih e h.takeBatch.2 hopened hround).bind fun out l' hmid => ?_
    obtain ⟨⟨hagrees, hrounds⟩, hids⟩ := hmid
    rw [← hids] at hrounds
    obtain ⟨hclosed, houter⟩ := hagrees.mergeBatch b hrounds
    exact .note ⟨_, _, hrounds⟩ hclosed (.ended ⟨hclosed, houter⟩)

/-- Every run follows the ledger, and if it ends then with no dispatch
running. -/
theorem keeps_ofRun (b : Behaviour κ ω) (depth : Nat) (script : Script κ ω) (w : ω) :
    (ofRun b depth script w).Keeps Ledger.empty fun out => Resumes [] out.1 :=
  keeps_ofScript (keeps_ofDispatch depth) script .start

/-- An entry of a run: what agrees in front of it, that it is permitted, and
what follows behind it. -/
theorem middle_ofRun {depth : Nat} {script : Script κ ω} {w : ω} {before after : List Entry}
    {entry : Entry} (h : (ofRun b depth script w).entries = before ++ entry :: after) :
    (∃ r : Registry κ, Agrees (Ledger.ofEntries before) r) ∧
      (Ledger.ofEntries before).Permits entry ∧
      ∃ later : List (Moment κ), after = later.map (·.entry) ∧
        Follows ((Ledger.ofEntries before).note entry) later := by
  obtain ⟨earlier, rest, hmoments, rfl, hrest⟩ := List.map_eq_append_iff.mp h
  obtain ⟨m, later, rfl, rfl, rfl⟩ := List.map_eq_cons_iff.mp hrest
  have hfollows := (keeps_ofRun b depth script w).follows
  rw [hmoments] at hfollows
  obtain ⟨hpermits, -, hlater⟩ := hfollows.middle
  exact ⟨(Follows.append.mp hfollows).1.agrees .start, hpermits, later, rfl, hlater⟩

end Chronicle

end Runwatch.Telemetry
