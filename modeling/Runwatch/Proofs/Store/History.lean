/-
Runwatch.Proofs.Store.History — a store is determined by its history.

What a memory store says of a token can be read off the changes made so far
(`History`): who registered it first and last, and which marks came behind
the last registration. `History.record?` is that reading; it looks at the
list of changes alone and keeps no state.

  §1 Records — a memory store as a table with one record for each token.
  §2 Listing — the order of a listing, which leaves no choice.
  §3 Changes — what one change does to the record of each token, and to the
               listings of the others.
  §4 History — the reading, and that each change moves it as it moves the
               store (`record?_register`, `record?_mark`).

`History.Determines` collects what a store says by its history, and the main
statement is `Memory.determined_by_history`.
-/
import Mathlib.Data.List.DropRight
import Runwatch.Proofs.Text.ByteOrder
import Runwatch.Store.Memory

namespace Runwatch.Store

open Time (Instant)

namespace Memory

/-! ## §1 Records -/

theorem get?_put (m : Memory) (r : DeviceToken) (token : String) :
    (m.put r).get? token = if r.token = token then some r else m.get? token := by
  rw [get?, put, List.find?_append, List.find?_filter]
  by_cases h : r.token = token
  · have hnone : (m.records.find? fun a => decide ((a.token != r.token) = true ∧
        (a.token == token) = true)) = none := by
      rw [List.find?_eq_none]
      intro a _
      simp only [h, bne_iff_ne, beq_iff_eq, decide_eq_true_eq]
      exact fun hboth => hboth.1 hboth.2
    rw [hnone, if_pos h]
    simp [h]
  · have hsame : (m.records.find? fun a => decide ((a.token != r.token) = true ∧
        (a.token == token) = true)) = m.get? token := by
      refine congrArg (fun p => List.find? p m.records) (funext fun a => ?_)
      rw [Bool.eq_iff_iff]
      simp only [bne_iff_ne, beq_iff_eq, decide_eq_true_eq]
      exact ⟨And.right, fun heq => ⟨fun hr => h (hr.symm.trans heq), heq⟩⟩
    rw [hsame, if_neg h]
    simp [h]

theorem token_of_get? {m : Memory} {token : String} {r : DeviceToken} (h : m.get? token = some r) :
    r.token = token := by
  have hfound := List.find?_some h
  exact beq_iff_eq.mp hfound

/-- The records are what can be looked up. -/
theorem mem_records {m : Memory} {r : DeviceToken} :
    r ∈ m.records ↔ m.get? r.token = some r := by
  constructor
  · intro hr
    obtain ⟨front, back, hsplit⟩ := List.append_of_mem hr
    have hfront : front.find? (·.token == r.token) = none := by
      rw [List.find?_eq_none]
      intro a ha
      have hdistinct := m.distinct
      rw [hsplit] at hdistinct
      have hne := (List.pairwise_append.mp hdistinct).2.2 a ha r List.mem_cons_self
      simpa using hne
    rw [get?, hsplit, List.find?_append, hfront, Option.none_or, List.find?_cons_of_pos]
    exact beq_self_eq_true r.token
  · exact List.mem_of_find?_eq_some

/-- A record without a token is a store without it. -/
theorem filter_put (m : Memory) (r : DeviceToken) :
    (m.put r).records.filter (·.token != r.token) = m.records.filter (·.token != r.token) := by
  rw [put, List.filter_append, List.filter_filter]
  simp

/-! ## §2 Listing -/

theorem listedBefore_iff {a b : DeviceToken} : listedBefore a b = true ↔
    a.createdAt.before b.createdAt = true ∨ a.createdAt = b.createdAt ∧ ¬ b.token < a.token := by
  simp [listedBefore]

theorem listedBefore_trans (a b c : DeviceToken) (hab : listedBefore a b = true)
    (hbc : listedBefore b c = true) : listedBefore a c = true := by
  rw [listedBefore_iff] at *
  cases hab with
  | inl hab =>
    cases hbc with
    | inl hbc => exact .inl (Instant.before_trans hab hbc)
    | inr hbc => exact .inl (hbc.1 ▸ hab)
  | inr hab =>
    cases hbc with
    | inl hbc => exact .inl (hab.1 ▸ hbc)
    | inr hbc =>
      refine .inr ⟨hab.1.trans hbc.1, ?_⟩
      rw [String.not_lt] at *
      exact String.le_trans hab.2 hbc.2

theorem listedBefore_total (a b : DeviceToken) :
    (listedBefore a b || listedBefore b a) = true := by
  rw [Bool.or_eq_true, listedBefore_iff, listedBefore_iff]
  rcases Instant.before_or_eq_or_after a.createdAt b.createdAt with hab | heq | hba
  · exact .inl (.inl hab)
  · cases String.le_total a.token b.token with
    | inl hle => exact .inl (.inr ⟨heq, String.not_lt.mpr hle⟩)
    | inr hle => exact .inr (.inr ⟨heq.symm, String.not_lt.mpr hle⟩)
  · exact .inr (.inl hba)

/-- Of two records about different tokens only one may come first. -/
theorem listedBefore_strict {a b : DeviceToken} (hne : a.token ≠ b.token)
    (hab : listedBefore a b = true) :
    a.createdAt.before b.createdAt = true ∨ a.createdAt = b.createdAt ∧ a.token < b.token := by
  cases listedBefore_iff.mp hab with
  | inl h => exact .inl h
  | inr h =>
    refine .inr ⟨h.1, Decidable.by_contra fun hnot => hne ?_⟩
    exact String.le_antisymm (String.not_lt.mp h.2) (String.not_lt.mp hnot)

theorem token_eq_of_listedBefore {a b : DeviceToken} (hab : listedBefore a b = true)
    (hba : listedBefore b a = true) : a.token = b.token := by
  refine Decidable.by_contra fun hne => ?_
  rcases listedBefore_strict hne hab with h | ⟨heq, h⟩
  · rcases listedBefore_strict (Ne.symm hne) hba with h' | ⟨heq', -⟩
    · have := Instant.before_trans h h'
      rw [Instant.not_before_self] at this
      cases this
    · rw [heq', Instant.not_before_self] at h
      cases h
  · rcases listedBefore_strict (Ne.symm hne) hba with h' | ⟨-, h'⟩
    · rw [heq, Instant.not_before_self] at h'
      cases h'
    · exact String.lt_asymm h h'

/-- The records that are listed for a user, in their order. -/
def listed (m : Memory) (user : UserId) : List DeviceToken :=
  (m.records.filter fun r => r.user == user && r.isActive).mergeSort listedBefore

theorem active_eq (m : Memory) (user : UserId) :
    m.active user = (m.listed user).map DeviceToken.toActive := rfl

theorem mem_listed {m : Memory} {user : UserId} {r : DeviceToken} :
    r ∈ m.listed user ↔ m.get? r.token = some r ∧ r.user = user ∧ r.isActive = true := by
  rw [listed, List.mem_mergeSort, List.mem_filter, mem_records, Bool.and_eq_true, beq_iff_eq]

theorem listed_distinct (m : Memory) (user : UserId) :
    (m.listed user).Pairwise fun a b => a.token ≠ b.token :=
  (List.mergeSort_perm _ _).symm.pairwise (m.distinct.filter _) fun h => Ne.symm h

theorem listed_inOrder (m : Memory) (user : UserId) :
    (m.listed user).Pairwise fun a b => listedBefore a b = true :=
  List.pairwise_mergeSort listedBefore_trans listedBefore_total _

/-- Two stores that agree on all tokens but one list the others alike. -/
theorem filter_listed_congr {m m' : Memory} {token : String}
    (h : m.records.filter (·.token != token) = m'.records.filter (·.token != token))
    (user : UserId) :
    (m.listed user).filter (·.token != token) = (m'.listed user).filter (·.token != token) := by
  have hperm (m : Memory) : ((m.listed user).filter (·.token != token)).Perm
      ((m.records.filter (·.token != token)).filter fun r => r.user == user && r.isActive) := by
    rw [List.filter_comm]
    exact (List.mergeSort_perm _ _).filter _
  refine List.Perm.eq_of_pairwise ?_
    ((m.listed_inOrder user).filter _) ((m'.listed_inOrder user).filter _)
    ((hperm m).trans (h ▸ (hperm m').symm))
  intro a b ha hb hab hba
  have hmem (c : DeviceToken) : c ∈ (m'.listed user).filter (·.token != token) →
      c ∈ m.records := by
    intro hc
    have hin := ((hperm m').subset hc)
    rw [← h] at hin
    exact (List.mem_filter.mp (List.mem_filter.mp hin).1).1
  have hagot := (mem_listed.mp (List.mem_filter.mp ha).1).1
  have hbgot := mem_records.mp (hmem b hb)
  rw [token_eq_of_listedBefore hab hba] at hagot
  exact Option.some.inj (hagot.symm.trans hbgot)

/-! ## §3 Changes -/

end Memory

/-- A call that may change a store. -/
inductive Change where
  | register (r : Registration)
  | mark (token reason : String)
  deriving DecidableEq, Repr

/-- The token that a change is about. -/
def Change.token : Change → String
  | .register r => r.token
  | .mark token _ => token

namespace Memory

/-- The store after a change. -/
def change (m : Memory) (now : Instant) : Change → Memory
  | .register r => (m.register now r).1
  | .mark token reason => (m.mark now token reason).1

/-- A record after a mark of its token. -/
def marked (now : Instant) (reason : String) (r : DeviceToken) : DeviceToken :=
  if r.isActive then invalidated r now reason else r

theorem get?_register (m : Memory) (now : Instant) (r : Registration) (token : String) :
    (m.register now r).1.get? token =
      if r.token = token then some (m.register now r).2 else m.get? token :=
  get?_put m _ token

/-- A mark ends the use of a token that is active; else it changes nothing. -/
theorem mark_cases (m : Memory) (now : Instant) (token reason : String) :
    (∃ r, m.get? token = some r ∧ r.isActive = true ∧
      m.mark now token reason = (m.put (invalidated r now reason), true)) ∨
    ((∀ r, m.get? token = some r → r.isActive = false) ∧
      m.mark now token reason = (m, false)) := by
  cases hr : m.get? token with
  | none => exact .inr ⟨nofun, by rw [mark, hr]⟩
  | some r =>
    cases hactive : r.isActive with
    | true => exact .inl ⟨r, rfl, hactive, by simp [mark, hr, hactive]⟩
    | false =>
      refine .inr ⟨?_, by simp [mark, hr, hactive]⟩
      rintro _ ⟨⟩
      exact hactive

theorem mark_true_iff {m : Memory} {now : Instant} {token reason : String} :
    (m.mark now token reason).2 = true ↔ ∃ r, m.get? token = some r ∧ r.isActive = true := by
  rcases mark_cases m now token reason with ⟨r, hr, hactive, heq⟩ | ⟨hnot, heq⟩
  · exact ⟨fun _ => ⟨r, hr, hactive⟩, fun _ => by rw [heq]⟩
  · rw [heq]
    refine ⟨nofun, fun ⟨r, hr, hactive⟩ => ?_⟩
    rw [hnot r hr] at hactive
    cases hactive

theorem mark_unchanged {m : Memory} {now : Instant} {token reason : String}
    (h : (m.mark now token reason).2 = false) : (m.mark now token reason).1 = m := by
  rcases mark_cases m now token reason with ⟨_, _, _, heq⟩ | ⟨_, heq⟩
  · rw [heq] at h
    cases h
  · rw [heq]

theorem get?_mark (m : Memory) (now : Instant) (ended reason token : String) :
    (m.mark now ended reason).1.get? token =
      if ended = token then (m.get? token).map (marked now reason) else m.get? token := by
  rcases mark_cases m now ended reason with ⟨r, hr, hactive, heq⟩ | ⟨hnot, heq⟩
  · have htoken : (invalidated r now reason).token = ended := token_of_get? (m := m) (r := r) hr
    rw [heq, get?_put, htoken]
    split
    · next heq => rw [← heq, hr, Option.map_some, marked, if_pos hactive]
    · rfl
  · rw [heq]
    split
    · next heq =>
      rw [← heq]
      cases hr : m.get? ended with
      | none => rfl
      | some r => simp [marked, hnot r hr]
    · rfl

/-- A change leaves the records of all other tokens as they are, and their
order. -/
theorem filter_change (m : Memory) (now : Instant) (c : Change) :
    (m.change now c).records.filter (·.token != c.token) =
      m.records.filter (·.token != c.token) := by
  cases c with
  | register r => exact filter_put m (m.register now r).2
  | mark token reason =>
    rcases mark_cases m now token reason with ⟨r, hr, _, heq⟩ | ⟨_, heq⟩
    · have hput := filter_put m (invalidated r now reason)
      rw [show (invalidated r now reason).token = token from token_of_get? (m := m) (r := r) hr]
        at hput
      rw [change, heq]
      exact hput
    · rw [change, heq]

theorem get?_change_of_ne {c : Change} {token : String} (h : c.token ≠ token) (m : Memory)
    (now : Instant) : (m.change now c).get? token = m.get? token := by
  cases c with
  | register r => exact (get?_register m now r token).trans (if_neg h)
  | mark ended reason => exact (get?_mark m now ended reason token).trans (if_neg h)

/-- A change leaves the entries of all other tokens as they are, in the
listing of each user. -/
theorem active_change (m : Memory) (now : Instant) (c : Change) (user : UserId) :
    ((m.change now c).active user).filter (·.token != c.token) =
      (m.active user).filter (·.token != c.token) := by
  have hlisted := filter_listed_congr (filter_change m now c) user
  have hmap (m : Memory) : (m.active user).filter (·.token != c.token) =
      ((m.listed user).filter (·.token != c.token)).map DeviceToken.toActive := by
    rw [active_eq, List.filter_map]
    rfl
  rw [hmap, hmap, hlisted]

/-- A listing holds the addresses of the active records of its user. -/
theorem mem_active {m : Memory} {user : UserId} {a : ActiveToken} :
    a ∈ m.active user ↔
      ∃ r, m.get? a.token = some r ∧ r.user = user ∧ r.isActive = true ∧ r.toActive = a := by
  rw [active_eq, List.mem_map]
  constructor
  · rintro ⟨r, hr, rfl⟩
    obtain ⟨hget, huser, hactive⟩ := mem_listed.mp hr
    exact ⟨r, hget, huser, hactive, rfl⟩
  · rintro ⟨r, hget, huser, hactive, rfl⟩
    exact ⟨r, mem_listed.mpr ⟨hget, huser, hactive⟩, rfl⟩

/-- A listing holds no token twice. -/
theorem active_nodup (m : Memory) (user : UserId) : ((m.active user).map (·.token)).Nodup := by
  rw [List.nodup_iff_pairwise_ne, List.pairwise_map, active_eq, List.pairwise_map]
  exact listed_distinct m user

/-- A mark takes its token out of every listing and leaves the others in
their order. -/
theorem active_mark (m : Memory) (now : Instant) (token reason : String) (user : UserId) :
    (m.mark now token reason).1.active user = (m.active user).filter (·.token != token) := by
  have hothers := active_change m now (.mark token reason) user
  simp only [change, Change.token] at hothers
  rw [← hothers, eq_comm, List.filter_eq_self]
  intro a ha
  obtain ⟨r, hget, -, hactive, -⟩ := mem_active.mp ha
  rw [bne_iff_ne]
  rintro htoken
  rw [get?_mark, if_pos htoken.symm] at hget
  obtain ⟨old, -, rfl⟩ := Option.map_eq_some_iff.mp hget
  unfold marked at hactive
  split at hactive
  · cases hactive
  · next hnot => exact hnot hactive

end Memory

/-! ## §4 History -/

/-- The changes made to a store and their times, the oldest first. The times
may stand still or run back. -/
abbrev History := List (Instant × Change)

namespace History

/-- The registrations of a token and their times. -/
def registrations (h : History) (token : String) : List (Instant × Registration) :=
  h.filterMap fun call => match call.2 with
    | .register r => if r.token = token then some (call.1, r) else none
    | .mark _ _ => none

/-- Whether a call does not register a token. -/
def notRegistering (token : String) (call : Instant × Change) : Bool :=
  match call.2 with
  | .register r => r.token != token
  | .mark _ _ => true

/-- The marks of a token since its last registration: their times and
reasons. -/
def marksSince (h : History) (token : String) : List (Instant × String) :=
  (h.rtakeWhile (notRegistering token)).filterMap fun call => match call.2 with
    | .register _ => none
    | .mark marked reason => if marked = token then some (call.1, reason) else none

/-- The record that a token has by its first and last registration and the
first mark since, if there was one. -/
def recordBy (first last : Instant × Registration) (ended : Option (Instant × String)) :
    DeviceToken where
  token := last.2.token
  user := last.2.user
  environment := last.2.environment
  bundle := last.2.bundle
  createdAt := first.1
  updatedAt := (ended.map Prod.fst).getD last.1
  invalidatedAt := ended.map Prod.fst
  invalidatedReason := ended.map Prod.snd

/-- The record of a token, read off the history. -/
def record? (h : History) (token : String) : Option DeviceToken :=
  match (h.registrations token).head?, (h.registrations token).getLast? with
  | some first, some last => some (recordBy first last (h.marksSince token).head?)
  | _, _ => none

/-! ### One more registration -/

variable (h : History) (now : Instant) (token : String)

theorem registrations_register (r : Registration) :
    registrations (h ++ [(now, .register r)]) token =
      h.registrations token ++ if r.token = token then [(now, r)] else [] := by
  rw [registrations, List.filterMap_append]
  by_cases htoken : r.token = token <;> simp [htoken, registrations]

theorem marksSince_register (r : Registration) :
    marksSince (h ++ [(now, .register r)]) token =
      if r.token = token then [] else h.marksSince token := by
  rw [marksSince]
  by_cases htoken : r.token = token
  · rw [List.rtakeWhile_concat_neg _ _ _ (by simp [notRegistering, htoken]), if_pos htoken]
    rfl
  · rw [List.rtakeWhile_concat_pos _ _ _ (by simp [notRegistering, htoken]), if_neg htoken,
      List.filterMap_append, marksSince]
    simp

/-- A registration enters a record that keeps only the time of creation of the
one before. -/
theorem record?_register (r : Registration) :
    record? (h ++ [(now, .register r)]) token =
      if r.token = token then
        some (recordBy ((((h.record? token).map (·.createdAt)).getD now), r) (now, r) none)
      else h.record? token := by
  rw [record?, registrations_register, marksSince_register]
  by_cases htoken : r.token = token
  · simp only [if_pos htoken, List.getLast?_concat, List.head?_append, record?]
    cases hfirst : (h.registrations token).head? with
    | none => rfl
    | some first =>
      cases hlast : (h.registrations token).getLast? with
      | none => simp_all
      | some last => rfl
  · simp only [if_neg htoken, List.append_nil, record?]

/-! ### One more mark -/

theorem registrations_mark (ended reason : String) :
    registrations (h ++ [(now, .mark ended reason)]) token = h.registrations token := by
  simp [registrations]

theorem marksSince_mark (ended reason : String) :
    marksSince (h ++ [(now, .mark ended reason)]) token =
      h.marksSince token ++ if ended = token then [(now, reason)] else [] := by
  rw [marksSince, List.rtakeWhile_concat_pos _ _ _ rfl, List.filterMap_append, marksSince]
  by_cases htoken : ended = token <;> simp [htoken]

/-- A mark ends the use of a record, unless an earlier one has. -/
theorem record?_mark (ended reason : String) :
    record? (h ++ [(now, .mark ended reason)]) token =
      if ended = token then (h.record? token).map (Memory.marked now reason)
      else h.record? token := by
  rw [record?, registrations_mark, marksSince_mark, record?]
  by_cases htoken : ended = token
  · simp only [if_pos htoken, List.head?_append]
    split
    · next first last _ _ =>
      cases hmark : (h.marksSince token).head? <;> rfl
    · rfl
  · simp only [if_neg htoken, List.append_nil]

/-! ### What the record says -/

variable {h token}

theorem token_of_mem_registrations {call : Instant × Registration}
    (hcall : call ∈ h.registrations token) : call.2.token = token := by
  obtain ⟨⟨at', c⟩, -, hkept⟩ := List.mem_filterMap.mp hcall
  cases c with
  | register r =>
    by_cases htoken : r.token = token
    · simp only [if_pos htoken, Option.some.injEq] at hkept
      rw [← hkept]
      exact htoken
    · simp [htoken] at hkept
  | mark ended reason => cases hkept

theorem record?_eq_none_iff : h.record? token = none ↔ h.registrations token = [] := by
  rw [record?]
  cases hcalls : h.registrations token with
  | nil => simp
  | cons first rest =>
    obtain ⟨last, hlast⟩ : ∃ last, (first :: rest).getLast? = some last :=
      ⟨_, List.getLast?_eq_some_getLast (List.cons_ne_nil first rest)⟩
    simp [hlast]

theorem record?_eq_some_iff {r : DeviceToken} :
    h.record? token = some r ↔
      ∃ first last, (h.registrations token).head? = some first ∧
        (h.registrations token).getLast? = some last ∧
        r = recordBy first last (h.marksSince token).head? := by
  rw [record?]
  constructor
  · intro hr
    split at hr
    · next first last hfirst hlast => exact ⟨first, last, hfirst, hlast, (Option.some.inj hr).symm⟩
    · cases hr
  · rintro ⟨first, last, hfirst, hlast, rfl⟩
    rw [hfirst, hlast]

theorem token_of_record? {r : DeviceToken} (hr : h.record? token = some r) : r.token = token := by
  obtain ⟨first, last, -, hlast, rfl⟩ := record?_eq_some_iff.mp hr
  exact token_of_mem_registrations (List.mem_of_getLast? hlast)

theorem isActive_recordBy {first last : Instant × Registration} {marks : List (Instant × String)} :
    (recordBy first last marks.head?).isActive = true ↔ marks = [] := by
  cases marks <;> simp [recordBy, DeviceToken.isActive]

end History

namespace Memory

/-! ### The store after a history -/

/-- The store that a history makes of an empty one. -/
def after (h : History) : Memory := h.foldl (fun m call => m.change call.1 call.2) .empty

theorem after_concat (h : History) (now : Instant) (c : Change) :
    after (h ++ [(now, c)]) = (after h).change now c := by
  rw [after, List.foldl_append]
  rfl

/-- What the store has of a token is what the history says. -/
theorem get?_after (h : History) (token : String) : (after h).get? token = h.record? token := by
  -- the last change moves the record in the store and the one read off the history alike
  induction h using List.reverseRecOn with
  | nil => rfl
  | append_singleton h call ih =>
    obtain ⟨now, c⟩ := call
    rw [after_concat]
    cases c with
    | register r =>
      rw [change, get?_register, History.record?_register]
      by_cases htoken : r.token = token
      · subst htoken
        rw [if_pos rfl, if_pos rfl, ← ih]
        rfl
      · rw [if_neg htoken, if_neg htoken, ih]
    | mark ended reason => rw [change, get?_mark, History.record?_mark, ih]

/-- A token is active if it was registered and not marked since. -/
theorem active_after_iff {h : History} {token : String} :
    (∃ r, (after h).get? token = some r ∧ r.isActive = true) ↔
      h.registrations token ≠ [] ∧ h.marksSince token = [] := by
  rw [get?_after]
  constructor
  · rintro ⟨r, hr, hactive⟩
    refine ⟨fun hnone => ?_, ?_⟩
    · rw [History.record?_eq_none_iff.mpr hnone] at hr
      cases hr
    · obtain ⟨first, last, -, -, rfl⟩ := History.record?_eq_some_iff.mp hr
      exact History.isActive_recordBy.mp hactive
  · rintro ⟨hsome, hmarks⟩
    obtain ⟨r, hr⟩ := Option.ne_none_iff_exists'.mp (mt History.record?_eq_none_iff.mp hsome)
    obtain ⟨first, last, -, -, rfl⟩ := History.record?_eq_some_iff.mp hr
    exact ⟨_, hr, History.isActive_recordBy.mpr hmarks⟩

/-- A listing holds the tokens last registered for its user and not marked
since. -/
theorem mem_active_after {h : History} {user : UserId} {a : ActiveToken} :
    a ∈ (after h).active user ↔
      ∃ last, (h.registrations a.token).getLast? = some last ∧ last.2.user = user ∧
        h.marksSince a.token = [] ∧ a = ⟨a.token, last.2.environment, last.2.bundle⟩ := by
  rw [active_eq, List.mem_map]
  constructor
  · rintro ⟨r, hr, rfl⟩
    obtain ⟨hget, huser, hactive⟩ := mem_listed.mp hr
    rw [get?_after] at hget
    obtain ⟨first, last, hfirst, hlast, heq⟩ := History.record?_eq_some_iff.mp hget
    rw [heq] at huser hactive
    refine ⟨last, hlast, huser, History.isActive_recordBy.mp hactive, ?_⟩
    rw [DeviceToken.toActive, heq]
    rfl
  · rintro ⟨last, hlast, huser, hmarks, ha⟩
    have hsome : h.registrations a.token ≠ [] := fun hnone => by
      rw [hnone] at hlast
      cases hlast
    obtain ⟨r, hr⟩ := Option.ne_none_iff_exists'.mp (mt History.record?_eq_none_iff.mp hsome)
    obtain ⟨first, last', -, hlast', heq⟩ := History.record?_eq_some_iff.mp hr
    obtain rfl : last = last' := Option.some.inj (hlast.symm.trans hlast')
    have htoken : r.token = a.token := History.token_of_record? hr
    refine ⟨r, mem_listed.mpr ⟨?_, ?_, ?_⟩, ?_⟩
    · rw [get?_after, htoken]
      exact hr
    · rw [heq]
      exact huser
    · rw [heq]
      exact History.isActive_recordBy.mpr hmarks
    · rw [ha, DeviceToken.toActive, htoken, heq]
      rfl

end Memory

/-- One token was registered for the first time before another one was, or
at the same time and its bytes come first. -/
def History.FirstBefore (h : History) (token token' : String) : Prop :=
  ∃ first first', (h.registrations token).head? = some first ∧
    (h.registrations token').head? = some first' ∧
    (first.1.before first'.1 = true ∨
      first.1 = first'.1 ∧ Text.Utf8.bytes token < Text.Utf8.bytes token')

/-- A store has what a history says, and nothing else moves it. -/
structure History.Determines (h : History) (m : Memory) : Prop where
  /-- A token is unknown if it was never registered. -/
  unknown : ∀ token, m.get? token = none ↔ h.registrations token = []
  /-- A token's record is the one read off the history. -/
  record : ∀ token, m.get? token = h.record? token
  /-- The first mark since a token's last registration ends its use. -/
  firstMark : ∀ now token reason, (m.mark now token reason).2 = true ↔
    h.registrations token ≠ [] ∧ h.marksSince token = []
  /-- All other marks change nothing. -/
  otherMark : ∀ now token reason, (m.mark now token reason).2 = false →
    (m.mark now token reason).1 = m
  /-- A listing holds the tokens last registered for its user and not marked
  since. -/
  listed : ∀ user a, a ∈ m.active user ↔
    ∃ last, (h.registrations a.token).getLast? = some last ∧ last.2.user = user ∧
      h.marksSince a.token = [] ∧ a = ⟨a.token, last.2.environment, last.2.bundle⟩
  /-- It holds them once. -/
  once : ∀ user, ((m.active user).map (·.token)).Nodup
  /-- It holds them in the order of their first registrations. -/
  inOrder : ∀ user, (m.active user).Pairwise fun a b => h.FirstBefore a.token b.token
  /-- No token is listed for two users. -/
  oneUser : ∀ user user' a b, a ∈ m.active user → b ∈ m.active user' → a.token = b.token →
    user = user'
  /-- A change leaves the records of other tokens alone. -/
  otherRecord : ∀ now c token, c.token ≠ token → (m.change now c).get? token = m.get? token
  /-- A change leaves the entries of other tokens alone. -/
  otherEntry : ∀ now c user, ((m.change now c).active user).filter (·.token != c.token) =
    (m.active user).filter (·.token != c.token)

namespace Memory

theorem active_after_inOrder (h : History) (user : UserId) :
    ((after h).active user).Pairwise fun a b => h.FirstBefore a.token b.token := by
  rw [active_eq, List.pairwise_map]
  refine ((listed_distinct _ user).and (listed_inOrder _ user)).imp_of_mem ?_
  rintro a b ha hb ⟨hne, hbefore⟩
  have hfirst (r : DeviceToken) (hr : r ∈ (after h).listed user) :
      ∃ first, (h.registrations r.token).head? = some first ∧ r.createdAt = first.1 := by
    have hget := (mem_listed.mp hr).1
    rw [get?_after] at hget
    obtain ⟨first, last, hfirst, -, heq⟩ := History.record?_eq_some_iff.mp hget
    exact ⟨first, hfirst, congrArg DeviceToken.createdAt heq⟩
  obtain ⟨first, hfirst₁, hat⟩ := hfirst a ha
  obtain ⟨first', hfirst₂, hat'⟩ := hfirst b hb
  refine ⟨first, first', hfirst₁, hfirst₂, ?_⟩
  rw [← hat, ← hat', Text.Utf8.bytes_lt_bytes]
  exact listedBefore_strict hne hbefore

/-- A store is determined by its history. -/
theorem determined_by_history (h : History) : h.Determines (after h) where
  unknown token := by rw [get?_after, History.record?_eq_none_iff]
  record := get?_after h
  firstMark _ _ _ := mark_true_iff.trans active_after_iff
  otherMark _ _ _ := mark_unchanged
  listed _ _ := mem_active_after
  once user := by
    rw [List.nodup_iff_pairwise_ne, List.pairwise_map, active_eq, List.pairwise_map]
    exact listed_distinct _ user
  inOrder := active_after_inOrder h
  oneUser user user' a b ha hb htoken := by
    obtain ⟨last, hlast, huser, -⟩ := mem_active_after.mp ha
    obtain ⟨last', hlast', huser', -⟩ := mem_active_after.mp hb
    rw [htoken] at hlast
    rw [← huser, ← huser', Option.some.inj (hlast.symm.trans hlast')]
  otherRecord now _ _ hne := get?_change_of_ne hne _ now
  otherEntry := active_change _

/-- A token that was marked twice and then moved to another user, by a clock
that runs back. -/
example : (after
    [(⟨5, 0⟩, .register ⟨"t", ⟨"ada"⟩, .production, "app"⟩), (⟨7, 0⟩, .mark "t" "gone"),
     (⟨6, 0⟩, .mark "t" "again"), (⟨4, 0⟩, .register ⟨"t", ⟨"eve"⟩, .development, "app"⟩),
     (⟨3, 0⟩, .mark "t" "moved")]).get? "t" =
    some ⟨"t", ⟨"eve"⟩, .development, "app", ⟨5, 0⟩, ⟨3, 0⟩, some ⟨3, 0⟩, some "moved"⟩ := by
  decide

end Memory

end Runwatch.Store
