/-
Runwatch.Proofs.Telemetry.Delivery — whom a dispatch calls.

A dispatch calls each observer that was live and in no running dispatch when
it began, once, in the order in which they subscribed. What happens while it
runs does not matter: those that are removed meanwhile are called all the
same, those that subscribe meanwhile are not, and nobody is called while it
is being called.

`ownCalls` reads the calls of one dispatch off the chronicle, leaving out
those of the dispatches inside it. The main statement is
`Chronicle.dispatch_calls_each_once`.
-/
import Runwatch.Proofs.Telemetry.Ledger

namespace Runwatch.Telemetry

variable {κ ω : Type}

/-- The observers that a dispatch calls, read off the entries behind its
beginning; `depth` dispatches that began inside it have not ended. -/
def ownCalls : Nat → List Entry → List ObserverId
  | _, [] => []
  | 0, .closed :: _ => []
  | depth + 1, .closed :: rest => ownCalls depth rest
  | depth, .opened _ :: rest => ownCalls (depth + 1) rest
  | 0, .called id :: rest => id :: ownCalls 0 rest
  | depth, _ :: rest => ownCalls depth rest

/-- Whether the dispatch ends. -/
def closes : Nat → List Entry → Bool
  | _, [] => false
  | 0, .closed :: _ => true
  | depth + 1, .closed :: rest => closes depth rest
  | depth, .opened _ :: rest => closes (depth + 1) rest
  | depth, _ :: rest => closes depth rest

/-- Nobody is called that is being called: those are in the batches of the
outer dispatches. -/
theorem Agrees.not_busy {l : Ledger} {r : Registry κ} (ha : Agrees l r)
    {batch waiting : List ObserverId} {id : ObserverId} {outer : List Round}
    (hrounds : l.rounds = ⟨batch, none, id :: waiting⟩ :: outer) : id ∉ l.busy := by
  intro hbusy
  simp only [Ledger.busy, hrounds, List.filterMap_cons_none] at hbusy
  obtain ⟨round, hround, hcurrent⟩ := List.mem_filterMap.mp hbusy
  have hbatch : id ∈ batch :=
    (ha.rounds ⟨batch, none, id :: waiting⟩ (hrounds ▸ List.mem_cons_self)).subset
      List.mem_cons_self
  have hround' : id ∈ round.batch := by
    refine (ha.rounds round (hrounds ▸ List.mem_cons_of_mem _ hround)).subset ?_
    simp [hcurrent]
  have hnodup := ha.nodup_inFlight
  rw [ha.inFlight, hrounds, List.reverse_cons, List.flatMap_append] at hnodup
  refine (List.nodup_append.mp hnodup).2.2 id ?_ id ?_ rfl
  · exact List.mem_flatMap.mpr ⟨round, List.mem_reverse.mpr hround, hround'⟩
  · simpa using hbatch

/-- A running dispatch calls a beginning of those it has still to call, all
of them if it ends; if it does not, it is running at the end. -/
theorem Follows.ownCalls {l : Ledger} {moments : List (Moment κ)} (h : Follows l moments)
    {inner outer : List Round} {round : Round} (hrounds : l.rounds = inner ++ round :: outer) :
    ∃ later, round.waiting = ownCalls inner.length (moments.map (·.entry)) ++ later ∧
      (closes inner.length (moments.map (·.entry)) = true → later = []) ∧
      (closes inner.length (moments.map (·.entry)) = false →
        (l.notes (moments.map (·.entry))).rounds ≠ []) := by
  induction moments generalizing l inner round with
  | nil =>
    refine ⟨round.waiting, rfl, ?_, ?_⟩
    · intro hcloses
      cases hcloses
    · intro _
      simp [hrounds]
  | cons m rest ih =>
    obtain ⟨hpermits, -, hrest⟩ := h
    simp only [List.map_cons, Ledger.notes_cons]
    cases hm : m.entry with
    | subscribed id | unsubscribed id removed | cleared | counted n =>
      rw [hm] at hrest
      exact ih hrest hrounds
    | opened e =>
      rw [hm] at hrest
      have hinside : (l.note (.opened e)).rounds
          = (⟨l.outside, none, l.outside⟩ :: inner) ++ round :: outer :=
        congrArg (List.cons _) hrounds
      have hmore := ih hrest hinside
      simp only [List.length_cons] at hmore
      simpa only [Telemetry.ownCalls, closes] using hmore
    | called id =>
      rw [hm] at hpermits hrest
      obtain ⟨batch, waiting, others, hcalls⟩ := hpermits
      have hnext : (l.note (.called id)).rounds = ⟨batch, some id, waiting⟩ :: others := by
        simp [Ledger.note, Ledger.onRound, hcalls]
      rw [hrounds] at hcalls
      cases inner with
      | nil =>
        obtain ⟨rfl, rfl⟩ := List.cons.inj hcalls
        obtain ⟨later, hwaiting, hends, hruns⟩ := ih hrest (show _ = [] ++ _ :: _ from hnext)
        exact ⟨later, congrArg (List.cons id) hwaiting, hends, hruns⟩
      | cons first inner =>
        obtain ⟨rfl, rfl⟩ := List.cons.inj hcalls
        have hinner : (l.note (.called id)).rounds =
            (⟨batch, some id, waiting⟩ :: inner) ++ round :: outer := hnext
        have hmore := ih hrest hinner
        exact hmore
    | returned id =>
      rw [hm] at hpermits hrest
      obtain ⟨batch, waiting, others, hcalls⟩ := hpermits
      have hnext : (l.note (.returned id)).rounds = ⟨batch, none, waiting⟩ :: others := by
        simp [Ledger.note, Ledger.onRound, hcalls]
      rw [hrounds] at hcalls
      cases inner with
      | nil =>
        obtain ⟨rfl, rfl⟩ := List.cons.inj hcalls
        have hround : (l.note (.returned id)).rounds =
            [] ++ (⟨batch, none, waiting⟩ : Round) :: _ := hnext
        have hmore := ih hrest hround
        exact hmore
      | cons first inner =>
        obtain ⟨rfl, rfl⟩ := List.cons.inj hcalls
        have hinner : (l.note (.returned id)).rounds =
            (⟨batch, none, waiting⟩ :: inner) ++ round :: outer := hnext
        have hmore := ih hrest hinner
        exact hmore
    | closed =>
      rw [hm] at hpermits hrest
      obtain ⟨batch, others, hover⟩ := hpermits
      have hnext : (l.note .closed).rounds = others := by simp [Ledger.note, hover]
      rw [hrounds] at hover
      cases inner with
      | nil =>
        obtain ⟨rfl, rfl⟩ := List.cons.inj hover
        refine ⟨[], rfl, fun _ => rfl, ?_⟩
        intro hcloses
        cases hcloses
      | cons first inner =>
        obtain ⟨rfl, rfl⟩ := List.cons.inj hover
        exact ih hrest hnext

namespace Chronicle

/-- **A dispatch calls each observer once.** In every run of a script, with
all that its observers do to the registry meanwhile and whether it ends or
not: the calls of a dispatch are a beginning of the observers that were live
and in no running dispatch when it began, in the order of their numbers, and
all of them if it ends, as it does if the run ends; none of them subscribed
behind its beginning. No observer is called while it is being called. -/
theorem dispatch_calls_each_once (b : Behaviour κ ω) (depth : Nat) (script : Script κ ω) (w : ω) :
    (ofRun b depth script w).result
      = Hub.runScript b (Hub.dispatch b depth) script (Hub.ofWorld w) ∧
    (∀ before e after, (ofRun b depth script w).entries = before ++ .opened e :: after →
      ownCalls 0 after <+: (Ledger.ofEntries before).outside ∧
      (closes 0 after = true → ownCalls 0 after = (Ledger.ofEntries before).outside) ∧
      ((ofRun b depth script w).result.isSome = true → closes 0 after = true) ∧
      (ownCalls 0 after).Pairwise (· < ·) ∧
      (∀ id, .subscribed id ∈ after → id ∉ ownCalls 0 after)) ∧
    (∀ before id after, (ofRun b depth script w).entries = before ++ .called id :: after →
      id ∉ (Ledger.ofEntries before).busy) := by
  refine ⟨result_ofRun b depth script w, ?dispatches, ?calls⟩
  case dispatches =>
    intro before e after hentries
    obtain ⟨⟨r, hagrees⟩, -, later, rfl, hlater⟩ := middle_ofRun hentries
    obtain ⟨untold, hwaiting, hends, hruns⟩ := hlater.ownCalls (show _ = [] ++ _ :: _ from rfl)
    have hbegins : ownCalls 0 (later.map (·.entry)) <+: (Ledger.ofEntries before).outside :=
      ⟨untold, hwaiting.symm⟩
    refine ⟨hbegins, ?all, ?ends, ?order, ?new⟩
    case all =>
      intro hcloses
      rw [hends hcloses, List.append_nil] at hwaiting
      exact hwaiting.symm
    case ends =>
      intro hsome
      obtain ⟨out, hout⟩ := Option.isSome_iff_exists.mp hsome
      have hnone := ((keeps_ofRun b depth script w).ends out hout).2
      rw [hentries, Ledger.notes_append, Ledger.notes_cons] at hnone
      exact (Bool.eq_false_or_eq_true _).resolve_right fun hcloses => hruns hcloses hnone
    case order =>
      exact hagrees.live_inOrder.sublist (hbegins.sublist.trans List.filter_sublist)
    case new =>
      intro id hnew hid
      have hold := hagrees.lt_next_of_mem_live (List.mem_of_mem_filter (hbegins.subset hid))
      exact Nat.not_lt_of_le (hlater.subscribed.2 id hnew).1 hold
  case calls =>
    intro before id after hentries
    obtain ⟨⟨r, hagrees⟩, ⟨batch, waiting, outer, hcalls⟩, -⟩ := middle_ofRun hentries
    exact hagrees.not_busy hcalls

/-- Observers of two kinds: a host removes everybody when told, invites a
guest and tells it the same; a guest does nothing. -/
inductive Attendant where
  | host
  | guest

/-- What they do. -/
def attendants : Behaviour Attendant Unit where
  react
    | .host, e => .clear (.subscribe .guest fun _ => .dispatch e (.done .host))
    | .guest, _ => .done .guest
  release _ w := w

/-- A host and a guest are told of something. -/
def reception : Script Attendant Unit :=
  .subscribe .host fun _ => .subscribe .guest fun _ => .dispatch (.other .null) (.done .guest)

/-- The guest is called although the host has removed it by then, and the
new guest only by the dispatch that the host begins. -/
theorem reception_calls_each_once :
    (Hub.runScript attendants (Hub.dispatch attendants 2) reception (Hub.ofWorld ())).isSome =
        true ∧
      ownCalls 0 ((ofRun attendants 2 reception ()).entries.drop 3) = [0, 1] ∧
      ownCalls 0 ((ofRun attendants 2 reception ()).entries.drop 7) = [2] := by
  obtain ⟨hresult, hdispatches, -⟩ := dispatch_calls_each_once attendants 2 reception ()
  have hends : (Hub.runScript attendants (Hub.dispatch attendants 2) reception
      (Hub.ofWorld ())).isSome = true := rfl
  rw [← hresult] at hends
  have houter := hdispatches [.subscribed 0, .subscribed 1] (.other .null) _ rfl
  have hinner := hdispatches
    [.subscribed 0, .subscribed 1, .opened (.other .null), .called 0, .cleared, .subscribed 2]
    (.other .null) _ rfl
  exact ⟨hresult ▸ hends, houter.2.1 (houter.2.2.1 hends), hinner.2.1 (hinner.2.2.1 hends)⟩

end Chronicle

end Runwatch.Telemetry
