/-
Runwatch.Proofs.Telemetry.Membership — a registry is a set of live observers.

A registry keeps three lists, and a dispatch moves observers between them
while its callbacks subscribe, unsubscribe, clear and dispatch. To those who
use it, it is one set of live observers all the same: subscribing adds a new
number, unsubscribing takes one away and tells whether it was there,
clearing takes all of them, a dispatch changes nothing (`Ledger.note`), and
what is counted is how many there are.

The main statement is `Chronicle.registry_holds_live`, at every point of
every run, also inside dispatches and of runs that do not end.
-/
import Runwatch.Proofs.Telemetry.Ledger

namespace Runwatch.Telemetry

variable {κ ω : Type}

/-- The live observers behind entries, in the order in which they
subscribed. -/
def liveAfter (entries : List Entry) : List ObserverId := (Ledger.ofEntries entries).live

/-- A registry stores these observers and nothing else. -/
structure Registry.Stores (r : Registry κ) (live : List ObserverId) : Prop where
  idle : idsOf r.idle = live
  inFlight : r.inFlight = []
  detached : r.detached = []

/-- A moment behind some entries is one of the plain set of live observers:
a new number, an answer that tells whether the observer was live, a count of
the live ones; and the registry behind it counts the live ones, by a
difference that exists, and stores them when no dispatch is running. -/
structure Moment.IsOfLive (m : Moment κ) (before : List Entry) : Prop where
  subscribed : ∀ id, m.entry = .subscribed id → .subscribed id ∉ before
  unsubscribed : ∀ id removed, m.entry = .unsubscribed id removed →
    (removed = true ↔ id ∈ liveAfter before)
  counted : ∀ n, m.entry = .counted n → n = (liveAfter before).length
  covered : m.registry.detached.length ≤ m.registry.idle.length + m.registry.inFlight.length
  count : m.registry.count = (liveAfter (before ++ [m.entry])).length
  inOrder : (liveAfter (before ++ [m.entry])).Pairwise (· < ·)
  atRest : (Ledger.ofEntries (before ++ [m.entry])).rounds = [] →
    m.registry.Stores (liveAfter (before ++ [m.entry]))

theorem Agrees.stores {l : Ledger} {r : Registry κ} (ha : Agrees l r) (hrest : l.rounds = []) :
    r.Stores l.live := by
  have hflight : r.inFlight = [] := by
    rw [ha.inFlight, hrest]
    rfl
  have hlive : l.live = idsOf r.idle := by
    rw [ha.live, hflight]
    rfl
  exact ⟨hlive.symm, hflight, List.subset_nil.mp (hflight ▸ ha.detached)⟩

theorem Follows.isOfLive {before after : List (Moment κ)} {m : Moment κ}
    (h : Follows Ledger.empty (before ++ m :: after)) : m.IsOfLive (before.map (·.entry)) := by
  obtain ⟨hpermits, hagrees, -⟩ := h.middle
  have hbehind : (Ledger.empty.notes (before.map (·.entry))).note m.entry
      = Ledger.ofEntries (before.map (·.entry) ++ [m.entry]) := by
    rw [Ledger.ofEntries, Ledger.notes_append]
    rfl
  rw [hbehind] at hagrees
  exact {
    subscribed := by
      intro id hm hin
      rw [hm] at hpermits
      have hold := ((Follows.append.mp h).1.subscribed.2 id hin).2
      exact Nat.ne_of_lt hold hpermits
    unsubscribed := by
      intro id removed hm
      rw [hm] at hpermits
      rw [show removed = _ from hpermits, List.contains_iff_mem]
      rfl
    counted := by
      intro n hm
      rw [hm] at hpermits
      exact hpermits
    covered := hagrees.count.1
    count := hagrees.count.2
    inOrder := hagrees.live_inOrder
    atRest := hagrees.stores }

/-- An observer that is not live any more never is again, and nobody is
told that it was. -/
theorem Follows.stays_dead {before between : List (Moment κ)}
    (h : Follows Ledger.empty (before ++ between)) {id : ObserverId}
    (hid : .subscribed id ∈ before.map (·.entry)) (hdead : id ∉ liveAfter (before.map (·.entry))) :
    id ∉ liveAfter ((before ++ between).map (·.entry)) ∧
      .unsubscribed id true ∉ between.map (·.entry) := by
  obtain ⟨hbefore, hbetween⟩ := Follows.append.mp h
  have hold := (hbefore.subscribed.2 id hid).2
  refine ⟨?later, ?answer⟩
  case later =>
    rw [liveAfter, Ledger.ofEntries, List.map_append, Ledger.notes_append]
    exact hbetween.dead hold hdead
  case answer =>
    intro hin
    obtain ⟨m, hm, hentry⟩ := List.mem_map.mp hin
    obtain ⟨earlier, rest, rfl⟩ := List.append_of_mem hm
    -- Up to that answer the observer has stayed dead.
    have hstill := (Follows.append.mp hbetween).1.dead hold hdead
    have hanswer := hbetween.middle.1
    rw [hentry] at hanswer
    exact hstill (List.contains_iff_mem.mp hanswer.symm)

namespace Chronicle

/-- **A registry holds the live observers.** Every moment of a run is one of
the plain set of live observers, inside dispatches and outside. What is not
live any more never is again, so that of the answers about one observer at
most one says that it was removed, and none behind a clearing of it. A run
that ends leaves the live observers stored, and nothing else. -/
theorem registry_holds_live (b : Behaviour κ ω) (depth : Nat) (script : Script κ ω) (w : ω) :
    (ofRun b depth script w).result
      = Hub.runScript b (Hub.dispatch b depth) script (Hub.ofWorld w) ∧
    (∀ before m after, (ofRun b depth script w).moments = before ++ m :: after →
      m.IsOfLive (before.map (·.entry))) ∧
    (∀ before between after, (ofRun b depth script w).moments = before ++ between ++ after →
      ∀ id, .subscribed id ∈ before.map (·.entry) → id ∉ liveAfter (before.map (·.entry)) →
        id ∉ liveAfter ((before ++ between).map (·.entry)) ∧
          .unsubscribed id true ∉ between.map (·.entry)) ∧
    (∀ h next, Hub.runScript b (Hub.dispatch b depth) script (Hub.ofWorld w) = some (h, next) →
      h.registry.Stores (liveAfter (ofRun b depth script w).entries)) := by
  have hkeeps := keeps_ofRun b depth script w
  refine ⟨result_ofRun b depth script w, ?moment, ?dead, ?ended⟩
  case moment =>
    intro before m after hmoments
    exact (hmoments ▸ hkeeps.follows).isOfLive
  case dead =>
    intro before between after hmoments id hid hdead
    have hfollows := hkeeps.follows
    rw [hmoments] at hfollows
    exact (Follows.append.mp hfollows).1.stays_dead hid hdead
  case ended =>
    intro h next hresult
    rw [← result_ofRun] at hresult
    obtain ⟨hagrees, hrest⟩ := hkeeps.ends (h, next) hresult
    exact hagrees.stores hrest

/-- Observers of two kinds: one leaves when told, says so twice and counts
those that are left; the other stays. -/
inductive Member where
  | leaver
  | stayer

/-- What they do. -/
def members : Behaviour Member Unit where
  react
    | .leaver, _ =>
      .unsubscribe 0 fun _ => .unsubscribe 0 fun _ => .count fun _ => .done .leaver
    | .stayer, _ => .done .stayer
  release _ w := w

/-- One of each kind is told of something. -/
def farewell : Script Member Unit :=
  .subscribe .leaver fun _ => .subscribe .stayer fun _ => .dispatch (.other .null) (.done .stayer)

/-- While both are in flight only one of them is counted, and only that one
is stored in the end. -/
theorem farewell_holds_live :
    (ofRun members 1 farewell ()).entries.drop 4
        = [.unsubscribed 0 true, .unsubscribed 0 false, .counted 1, .returned 0, .called 1,
            .returned 1, .closed] ∧
      (∀ m ∈ (ofRun members 1 farewell ()).moments[4]?,
        m.registry.inFlight = [0, 1] ∧ m.registry.count = 1) ∧
      (∀ h next, Hub.runScript members (Hub.dispatch members 1) farewell (Hub.ofWorld ())
        = some (h, next) → idsOf h.registry.idle = [1]) := by
  obtain ⟨-, hmoments, -, hended⟩ := registry_holds_live members 1 farewell ()
  refine ⟨rfl, ?_, fun h next hresult => (hended h next hresult).idle⟩
  intro m hm
  obtain rfl := Option.some.inj hm
  exact ⟨rfl, (hmoments ((ofRun members 1 farewell ()).moments.take 4) _ _ rfl).count⟩

end Chronicle

end Runwatch.Telemetry
