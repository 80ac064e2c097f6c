/-
Runwatch.Proofs.Push.Effect — what a delivery does to a memory store.

A delivery changes a record only where a reply says that its token must not
be used again. The journal of the delivery says which replies do (`endings`),
and these are the marks it makes, in the same order; the store is marked by
nothing else, so that its records and its listings after the delivery can be
read off them.

  §1 Replies — which replies end the use of a token (`Reply.EndsUse`).
  §2 Journal — the marks made are the endings told, each about a token of
               the list in a session that opened.
  §3 Store   — how a store comes through a journal (`Passes`): what marks
               about different tokens make of records and listings.
  §4 Effect  — the report, and all of it together.

The main statement is `Dispatcher.store_follows_replies`.
-/
import Mathlib.Data.List.Nodup
import Runwatch.Proofs.Push.Journal
import Runwatch.Proofs.Store.History

namespace Runwatch.Push

open Store (Memory memory StoreError)
open Time (Instant)

/-! ## §1 Replies -/

namespace Reply

/-- A reply that ends the use of its token: no success, and either the
status says so or one of two reasons. -/
def EndsUse (r : Reply) : Prop :=
  ¬ (200 ≤ r.status ∧ r.status < 300) ∧
    (r.status = 410 ∨ r.reason = some "Unregistered" ∨ r.reason = some "BadDeviceToken")

instance (r : Reply) : Decidable r.EndsUse := inferInstanceAs (Decidable (_ ∧ _))

/-- The reason that is passed on with the end of a token's use. -/
theorem getD_status {r : Reply} (h : r.EndsUse) :
    r.reason.getD ("status " ++ Text.decimal r.status) = r.reason.getD "status 410" := by
  obtain ⟨-, hgone | hreason | hreason⟩ := h
  · have hword : "status " ++ Text.decimal 410 = "status 410" := by decide
    rw [hgone, hword]
  · rw [hreason, Option.getD_some, Option.getD_some]
  · rw [hreason, Option.getD_some, Option.getD_some]

theorem outcome_eq (r : Reply) : r.outcome =
    if 200 ≤ r.status ∧ r.status < 300 then .delivered
    else if r.EndsUse then .invalidToken (r.reason.getD "status 410")
    else .rejected r.status r.reason := by
  have hreasons : r.reason.any (invalidatingReasons.contains ·) = true ↔
      r.reason = some "Unregistered" ∨ r.reason = some "BadDeviceToken" := by
    cases r.reason <;> simp [invalidatingReasons]
  by_cases hsuccess : 200 ≤ r.status ∧ r.status < 300
  · simp [outcome, hsuccess]
  · by_cases hends : r.EndsUse
    · have htold := hends.2
      rw [← hreasons] at htold
      rw [if_neg hsuccess, if_pos hends, ← getD_status hends]
      simp_all [outcome]
    · have htold : ¬ (r.status = 410 ∨ _) := fun htold => hends ⟨hsuccess, htold⟩
      rw [← hreasons] at htold
      simp_all [outcome]

theorem outcome_eq_invalidToken_iff {r : Reply} {reason : String} :
    r.outcome = .invalidToken reason ↔ r.EndsUse ∧ reason = r.reason.getD "status 410" := by
  rw [outcome_eq]
  split
  · next hsuccess => simp [EndsUse, hsuccess]
  · split <;> simp_all [eq_comm]

/-- With a body that gives no reason only the status can end a token's use. -/
theorem endsUse_ofParts {body : List UInt8} (h : reasonOf body = none) (status : Nat)
    (id : Option String) : (ofParts status id body).EndsUse ↔ status = 410 := by
  simp only [EndsUse, ofParts, h]
  constructor
  · rintro ⟨-, hgone | hreason | hreason⟩
    · exact hgone
    · cases hreason
    · cases hreason
  · rintro rfl
    exact ⟨by decide, .inl rfl⟩

end Reply

/-! ## §2 Journal -/

/-- The tokens to be marked and the reasons, in the order of the calls. -/
def marks (entries : List Entry) : List (String × String) :=
  entries.filterMap fun entry => match entry.call with
    | .mark token reason => some (token, reason)
    | _ => none

/-- The tokens that requests were sent for and what came back, in the order
of the requests. -/
def replies (entries : List Entry) : List (String × Except PushError Reply) :=
  entries.filterMap fun
    | ⟨.send _ request, answer⟩ => some (request.token, answer)
    | _ => none

/-- The token whose use a reply ends, and the reason. -/
def ending? : String × Except PushError Reply → Option (String × String)
  | (token, .ok reply) =>
    if reply.EndsUse then some (token, reply.reason.getD "status 410") else none
  | (_, .error _) => none

/-- The tokens whose use ends by a reply and the reasons, in the order of
the requests. -/
def endings (entries : List Entry) : List (String × String) :=
  (replies entries).filterMap ending?

/-- The tokens that a mark found active, in the order of the calls. -/
def confirmed (entries : List Entry) : List String :=
  entries.filterMap fun
    | ⟨.mark token _, .ok true⟩ => some token
    | _ => none

@[simp] theorem confirmed_append (xs ys : List Entry) :
    confirmed (xs ++ ys) = confirmed xs ++ confirmed ys := List.filterMap_append

@[simp] theorem marks_append (xs ys : List Entry) : marks (xs ++ ys) = marks xs ++ marks ys :=
  List.filterMap_append

@[simp] theorem replies_append (xs ys : List Entry) :
    replies (xs ++ ys) = replies xs ++ replies ys := List.filterMap_append

@[simp] theorem endings_append (xs ys : List Entry) :
    endings (xs ++ ys) = endings xs ++ endings ys := by
  rw [endings, replies_append, List.filterMap_append, endings, endings]

theorem mem_replies {entries : List Entry} {token : String} {answer : Except PushError Reply} :
    (token, answer) ∈ replies entries ↔
      ∃ e request, ⟨.send e request, answer⟩ ∈ entries ∧ request.token = token := by
  unfold replies
  rw [List.mem_filterMap]
  constructor
  · rintro ⟨⟨call, answer'⟩, hentry, hsome⟩
    cases call with
    | send e request =>
      obtain ⟨rfl, rfl⟩ := Prod.mk.inj (Option.some.inj hsome)
      exact ⟨e, request, hentry, rfl⟩
    | list | mint | openSession | mark | close => cases hsome
  · rintro ⟨e, request, hentry, rfl⟩
    exact ⟨_, hentry, rfl⟩

theorem ending?_eq_some {token : String} {answer : Except PushError Reply}
    {ended : String × String} :
    ending? (token, answer) = some ended ↔
      ∃ reply, answer = .ok reply ∧ reply.EndsUse ∧
        (token, reply.reason.getD "status 410") = ended := by
  cases answer with
  | error cause => simp [ending?]
  | ok reply => simp [ending?]

theorem mem_endings {entries : List Entry} {token reason : String} :
    (token, reason) ∈ endings entries ↔
      ∃ e request reply, ⟨.send e request, .ok reply⟩ ∈ entries ∧ reply.EndsUse ∧
        request.token = token ∧ reply.reason.getD "status 410" = reason := by
  unfold endings
  rw [List.mem_filterMap]
  constructor
  · rintro ⟨⟨told, answer⟩, hreply, hsome⟩
    obtain ⟨e, request, hentry, rfl⟩ := mem_replies.mp hreply
    obtain ⟨reply, rfl, hends, heq⟩ := ending?_eq_some.mp hsome
    obtain ⟨rfl, rfl⟩ := Prod.mk.inj heq
    exact ⟨e, request, reply, hentry, hends, rfl, rfl⟩
  · rintro ⟨e, request, reply, hentry, hends, rfl, rfl⟩
    exact ⟨_, mem_replies.mpr ⟨e, request, hentry, rfl⟩,
      ending?_eq_some.mpr ⟨reply, rfl, hends, rfl⟩⟩

theorem endings_tokens_sublist (entries : List Entry) :
    ((endings entries).map Prod.fst).Sublist ((replies entries).map Prod.fst) := by
  unfold endings
  induction replies entries with
  | nil => exact .slnil
  | cons told rest ih =>
    cases htold : ending? told with
    | none =>
      rw [List.filterMap_cons_none htold]
      exact ih.cons _
    | some ended =>
      obtain ⟨_, _, _, heq⟩ := ending?_eq_some.mp htold
      rw [List.filterMap_cons_some htold, ← heq]
      exact ih.cons_cons _

/-- A token that is sent to once is ended by what came back for it, or not
at all. -/
theorem not_mem_endings {entries : List Entry} (honce : ((replies entries).map Prod.fst).Nodup)
    {token : String} {answer : Except PushError Reply} (hreply : (token, answer) ∈ replies entries)
    (hnone : ending? (token, answer) = none) : token ∉ (endings entries).map Prod.fst := by
  rw [List.mem_map]
  rintro ⟨⟨_, reason⟩, hin, rfl⟩
  obtain ⟨told, htold, hsome⟩ := List.mem_filterMap.mp hin
  obtain ⟨_, _, _, heq⟩ := ending?_eq_some.mp hsome
  have hsame : told = (_, answer) :=
    List.inj_on_of_nodup_map honce htold hreply (congrArg Prod.fst heq :)
  rw [hsame, hnone] at hsome
  cases hsome

variable {e : Environment} {provider body : String} {tokens : List ActiveToken}
  {entries : List Entry}

/-- The mark about a token is the ending that the reply tells. -/
theorem AboutToken.marks_eq {t : ActiveToken} (h : AboutToken e provider body t entries) :
    marks entries = endings entries := by
  cases h with
  | lost cause => rfl
  | kept reply h =>
    have hends : ¬ reply.EndsUse := fun hends =>
      h _ (Reply.outcome_eq_invalidToken_iff.mpr ⟨hends, rfl⟩)
    simp [marks, endings, replies, ending?, hends]
  | ended reply reason h answer =>
    obtain ⟨hends, rfl⟩ := Reply.outcome_eq_invalidToken_iff.mp h
    simp [marks, endings, replies, ending?, hends]

theorem InSession.marks_eq (h : InSession e provider body tokens entries) :
    marks entries = endings entries := by
  induction h with
  | nil => rfl
  | cons hfirst _ ih => simp [hfirst.marks_eq, ih]

theorem AboutTier.marks_eq (h : AboutTier body e tokens entries) :
    marks entries = endings entries := by
  cases h with
  | unused | unminted | unopened => rfl
  | served _ provider hsession =>
    have hmarks := hsession.marks_eq
    simp_all [marks, endings, replies]

theorem InSession.send_mem (h : InSession e provider body tokens entries) {entry : Entry}
    (hentry : entry ∈ entries) {e' : Environment} {request : Request}
    (hcall : entry.call = .send e' request) : e' = e ∧ ∃ t ∈ tokens, request.token = t.token := by
  induction h with
  | nil => cases hentry
  | @cons t rest _ _ hfirst _ ih =>
    rcases List.mem_append.mp hentry with hin | hin
    · rcases hfirst.call_eq entry hin with hsend | ⟨reason, hmark⟩
      · obtain ⟨rfl, rfl⟩ := Call.send.inj (hcall.symm.trans hsend)
        exact ⟨rfl, t, List.mem_cons_self, rfl⟩
      · rw [hcall] at hmark
        cases hmark
    · obtain ⟨he, t', ht', htoken⟩ := ih hin
      exact ⟨he, t', List.mem_cons_of_mem _ ht', htoken⟩

/-- A request for a tier is about one of its tokens, in a session that opened. -/
theorem AboutTier.send_mem (h : AboutTier body e tokens entries) {entry : Entry}
    (hentry : entry ∈ entries) {e' : Environment} {request : Request}
    (hcall : entry.call = .send e' request) :
    e' = e ∧ ⟨.openSession e, .ok ()⟩ ∈ entries ∧ ∃ t ∈ tokens, request.token = t.token := by
  cases h with
  | unused => cases hentry
  | unminted => simp_all
  | unopened => rcases List.mem_cons.mp hentry with rfl | hentry <;> simp_all
  | served _ provider hsession =>
    simp only [List.mem_cons, List.mem_append, List.not_mem_nil, or_false] at hentry
    rcases hentry with rfl | rfl | hin | rfl
    · cases hcall
    · cases hcall
    · obtain ⟨he, ht⟩ := hsession.send_mem hin hcall
      exact ⟨he, by simp, ht⟩
    · cases hcall

theorem AboutToken.replies_eq {t : ActiveToken} (h : AboutToken e provider body t entries) :
    (replies entries).map Prod.fst = [t.token] := by
  cases h <;> rfl

theorem InSession.replies_eq (h : InSession e provider body tokens entries) :
    (replies entries).map Prod.fst = tokens.map (·.token) := by
  induction h with
  | nil => rfl
  | cons hfirst _ ih =>
    rw [replies_append, List.map_append, List.map_cons, hfirst.replies_eq, ih]
    rfl

/-- No two requests of a tier are for one token, as far as its list has none
twice. -/
theorem AboutTier.replies_sublist (h : AboutTier body e tokens entries) :
    ((replies entries).map Prod.fst).Sublist (tokens.map (·.token)) := by
  cases h with
  | unused | unminted | unopened => exact List.nil_sublist _
  | served _ provider hsession =>
    rw [← hsession.replies_eq]
    simp [replies]

/-! ## §3 Store -/

/-- How a memory store comes through some entries, when the clock shows
`clock n` at the first of them, `clock (n + 1)` at the next one, and so on:
a listing and a mark are answered as the store says, a mark marks it, and
nothing else touches it. -/
inductive Passes (clock : Nat → Instant) : Nat → Memory → List Entry → Memory → Prop where
  | nil {n m} : Passes clock n m [] m
  | list {n m m' rest} (user : UserId) (h : Passes clock (n + 1) m rest m') :
      Passes clock n m (⟨.list user, .ok (m.active user)⟩ :: rest) m'
  | mark {n m m' rest} (token reason : String)
      (h : Passes clock (n + 1) (m.mark (clock n) token reason).1 rest m') :
      Passes clock n m (⟨.mark token reason, .ok (m.mark (clock n) token reason).2⟩ :: rest) m'
  | other {n m m' rest} (entry : Entry) (hlist : ∀ user, entry.call ≠ .list user)
      (hmark : ∀ token reason, entry.call ≠ .mark token reason)
      (h : Passes clock (n + 1) m rest m') : Passes clock n m (entry :: rest) m'

/-- The service of a world whose clock may show anything at each call. -/
def Service.clocked {σ τ : Type} (clock : Nat → Instant) (service : Service (World σ τ)) :
    Service (World σ τ × Nat) :=
  fun c (w, n) =>
    let (answer, w) := service c { w with now := clock n }
    (answer, w, n + 1)

theorem Plan.passes {τ α : Type} (d : Dispatcher) (t : Transport τ) (clock : Nat → Instant)
    (plan : Plan α) (w : World Memory τ) (n : Nat) :
    Passes clock n w.store (plan.entries ((serviceOf memory d t).clocked clock) (w, n))
      (plan.run ((serviceOf memory d t).clocked clock) (w, n)).2.1.store := by
  induction plan generalizing w n with
  | done a => exact .nil
  | ask c next ih =>
    have hrest := ih ((serviceOf memory d t).clocked clock c (w, n)).1
      ((serviceOf memory d t).clocked clock c (w, n)).2.1
      ((serviceOf memory d t).clocked clock c (w, n)).2.2
    cases c with
    | list user => exact .list user hrest
    | mark token reason => exact .mark token reason hrest
    | mint | openSession e | send e request | close e => exact .other _ (by simp) (by simp) hrest

theorem marks_cons_of_ne {entry : Entry} (hmark : ∀ token reason, entry.call ≠ .mark token reason)
    (rest : List Entry) : marks (entry :: rest) = marks rest := by
  refine List.filterMap_cons_none ?_
  split
  · next token reason hcall => exact absurd hcall (hmark token reason)
  · rfl

theorem confirmed_cons_of_ne {entry : Entry}
    (hmark : ∀ token reason, entry.call ≠ .mark token reason) (rest : List Entry) :
    confirmed (entry :: rest) = confirmed rest := by
  refine List.filterMap_cons_none ?_
  split
  · next token reason => exact absurd rfl (hmark token reason)
  · rfl

@[simp] theorem marks_cons_mark (token reason : String) (answer : Except StoreError Bool)
    (rest : List Entry) :
    marks (⟨.mark token reason, answer⟩ :: rest) = (token, reason) :: marks rest := rfl

namespace Passes

variable {clock : Nat → Instant} {n : Nat} {m m' : Memory}

/-- A token that is not marked keeps its record. -/
theorem get?_eq (h : Passes clock n m entries m') {token : String}
    (hnot : token ∉ (marks entries).map Prod.fst) : m'.get? token = m.get? token := by
  induction h with
  | nil => rfl
  | list user _ ih => exact ih hnot
  | mark marked reason _ ih =>
    simp only [marks_cons_mark, List.map_cons, List.mem_cons, not_or] at hnot
    rw [ih hnot.2, Memory.get?_mark, if_neg (Ne.symm hnot.1)]
  | other entry _ hmark _ ih =>
    rw [marks_cons_of_ne hmark] at hnot
    exact ih hnot

/-- A token that is marked once is marked at some time. -/
theorem get?_marked (h : Passes clock n m entries m')
    (honce : ((marks entries).map Prod.fst).Nodup) {token reason : String}
    (hin : (token, reason) ∈ marks entries) :
    ∃ k, m'.get? token = (m.get? token).map (Memory.marked (clock k) reason) := by
  induction h with
  | nil => cases hin
  | list user _ ih => exact ih honce hin
  | @mark n _ _ _ marked reason' hrest ih =>
    simp only [marks_cons_mark, List.map_cons, List.nodup_cons] at honce
    rcases List.mem_cons.mp hin with heq | hin
    · obtain ⟨rfl, rfl⟩ := Prod.mk.inj heq
      exact ⟨n, by rw [hrest.get?_eq honce.1, Memory.get?_mark, if_pos rfl]⟩
    · have hne : marked ≠ token := fun heq =>
        honce.1 (heq ▸ List.mem_map_of_mem (f := Prod.fst) hin)
      obtain ⟨k, hk⟩ := ih honce.2 hin
      exact ⟨k, by rw [hk, Memory.get?_mark, if_neg hne]⟩
  | other entry _ hmark _ ih =>
    rw [marks_cons_of_ne hmark] at honce hin
    exact ih honce hin

/-- The listings lose the tokens that are marked, and keep their order. -/
theorem active_eq (h : Passes clock n m entries m') (user : UserId) :
    m'.active user =
      (m.active user).filter fun a => !((marks entries).map Prod.fst).contains a.token := by
  induction h with
  | nil => simp [marks]
  | list _ _ ih => exact ih
  | mark marked reason _ ih =>
    rw [ih, Memory.active_mark, List.filter_filter]
    refine List.filter_congr fun a _ => ?_
    rw [Bool.eq_iff_iff]
    simp [and_comm]
  | other entry _ hmark _ ih => rw [ih, marks_cons_of_ne hmark]

/-- Marks about different tokens, all active at first, all find them so. -/
theorem confirmed_eq (h : Passes clock n m entries m')
    (honce : ((marks entries).map Prod.fst).Nodup)
    (hactive : ∀ token ∈ (marks entries).map Prod.fst,
      ∃ r, m.get? token = some r ∧ r.isActive = true) :
    confirmed entries = (marks entries).map Prod.fst := by
  induction h with
  | nil => rfl
  | list user _ ih => exact ih honce hactive
  | @mark n m _ _ marked reason _ ih =>
    rw [marks_cons_mark, List.map_cons] at honce hactive
    rw [List.nodup_cons] at honce
    rw [List.forall_mem_cons] at hactive
    have hrest := ih honce.2 fun token htoken => by
      have hne : marked ≠ token := fun heq => honce.1 (heq ▸ htoken)
      rw [Memory.get?_mark, if_neg hne]
      exact hactive.2 token htoken
    rw [Memory.mark_true_iff.mpr hactive.1, marks_cons_mark, List.map_cons, ← hrest]
    rfl
  | other entry _ hmark _ ih =>
    rw [marks_cons_of_ne hmark] at honce hactive ⊢
    rw [confirmed_cons_of_ne hmark]
    exact ih honce hactive

end Passes

/-! ## §4 Effect -/

variable {σ : Type} (service : Service σ) (s : σ)

theorem invalidated_deliverOne (e : Environment) (provider body : String) (report : Report)
    (t : ActiveToken) (s : σ) :
    ((deliverOne e provider body report t).run service s).1.invalidated =
      report.invalidated ++
        confirmed ((deliverOne e provider body report t).entries service s) := by
  rw [deliverOne_eq, Plan.run, Plan.entries]
  rcases service (.send e ⟨t.token, provider, t.bundle, body⟩) s with ⟨cause | reply, s'⟩
  · simp [Plan.run, Plan.entries, confirmed, Report.fail]
  · cases houtcome : reply.outcome with
    | delivered => simp [houtcome, settle, Plan.run, confirmed]
    | rejected status reason =>
      simp [houtcome, settle, Plan.run, confirmed, Report.fail]
    | invalidToken reason =>
      simp only [houtcome, settle_invalidToken, Plan.run, Plan.entries]
      rcases service (.mark t.token reason) s' with ⟨cause | _ | _, s''⟩ <;>
        simp [Plan.run, Plan.entries, confirmed, Report.fail]

theorem invalidated_deliverAll (e : Environment) (provider body : String)
    (tokens : List ActiveToken) (report : Report) (s : σ) :
    ((deliverAll e provider body tokens report).run service s).1.invalidated =
      report.invalidated ++
        confirmed ((deliverAll e provider body tokens report).entries service s) := by
  induction tokens generalizing report s with
  | nil => simp [deliverAll, Plan.run, confirmed]
  | cons t rest ih =>
    simp only [deliverAll, Plan.bind_eq, Plan.run_bind, Plan.entries_bind]
    rw [ih, invalidated_deliverOne, confirmed_append, List.append_assoc]

theorem invalidated_deliverGroup (body : String) (e : Environment) (tokens : List ActiveToken)
    (report : Report) (s : σ) :
    ((deliverGroup body e tokens report).run service s).1.invalidated =
      report.invalidated ++ confirmed ((deliverGroup body e tokens report).entries service s) := by
  rw [deliverGroup_eq, Plan.run, Plan.entries]
  rcases service .mint s with ⟨cause | provider, s'⟩
  · simp [Plan.run, Plan.entries, confirmed, Report.fail]
  · simp only [Plan.run, Plan.entries]
    rcases service (.openSession e) s' with ⟨cause | _, s''⟩
    · simp [Plan.run, Plan.entries, confirmed, Report.fail]
    · simp only [Plan.run_bind, Plan.entries_bind, Plan.run, Plan.entries]
      rw [invalidated_deliverAll]
      simp [confirmed]

theorem invalidated_deliverGroups (body : String) (groups : List (Environment × List ActiveToken))
    (report : Report) (s : σ) :
    ((deliverGroups body groups report).run service s).1.invalidated =
      report.invalidated ++ confirmed ((deliverGroups body groups report).entries service s) := by
  induction groups generalizing report s with
  | nil => simp [deliverGroups, Plan.run, confirmed]
  | cons group rest ih =>
    simp only [deliverGroups, Plan.bind_eq, Plan.run_bind, Plan.entries_bind]
    rw [ih, invalidated_deliverGroup, confirmed_append, List.append_assoc]

/-- What the entries of a delivery to the tokens of a listing have in
common: the marks are those that the replies tell, no two requests are for
one token, and each is for a listed token, in a session that opened. -/
structure OfDelivery (listing : List ActiveToken) (entries : List Entry) : Prop where
  marks : marks entries = endings entries
  once : ((replies entries).map Prod.fst).Nodup
  sent : ∀ e request answer, ⟨.send e request, answer⟩ ∈ entries →
    ⟨.openSession e, .ok ()⟩ ∈ entries ∧
    ∃ a ∈ listing, a.environment = e ∧ request.token = a.token

namespace OfDelivery

variable {clock : Nat → Instant} {n : Nat} {m m' : Memory} {user : UserId}

theorem ended_once {listing : List ActiveToken} (h : OfDelivery listing entries) :
    ((Push.marks entries).map Prod.fst).Nodup := by
  rw [h.marks]
  exact h.once.sublist (endings_tokens_sublist entries)

/-- A token that is marked was listed, so that it has an active record. -/
theorem exists_record (h : OfDelivery (m.active user) entries) :
    ∀ token ∈ (Push.marks entries).map Prod.fst,
      ∃ r, m.get? token = some r ∧ r.isActive = true := by
  rw [h.marks]
  intro token htoken
  obtain ⟨⟨_, reason⟩, hin, rfl⟩ := List.mem_map.mp htoken
  obtain ⟨e, request, reply, hentry, -, rfl, -⟩ := mem_endings.mp hin
  obtain ⟨-, a, ha, -, heq⟩ := h.sent e request _ hentry
  obtain ⟨r, hget, -, hactive, -⟩ := Memory.mem_active.mp ha
  exact ⟨r, by rw [heq, hget], hactive⟩

theorem ended (h : OfDelivery (m.active user) entries) (hpasses : Passes clock n m entries m')
    {request : Request} {reply : Reply} (hentry : ⟨.send e request, .ok reply⟩ ∈ entries)
    (hends : reply.EndsUse) :
    ∃ record k, m.get? request.token = some record ∧ record.isActive = true ∧
      m'.get? request.token =
        some (Memory.invalidated record (clock k) (reply.reason.getD "status 410")) := by
  have hin : (request.token, reply.reason.getD "status 410") ∈ Push.marks entries := by
    rw [h.marks]
    exact mem_endings.mpr ⟨e, request, reply, hentry, hends, rfl, rfl⟩
  obtain ⟨record, hget, hactive⟩ := h.exists_record _ (List.mem_map_of_mem hin)
  obtain ⟨k, hk⟩ := hpasses.get?_marked h.ended_once hin
  refine ⟨record, k, hget, hactive, ?_⟩
  rw [hk, hget, Option.map_some, Memory.marked, if_pos hactive]

theorem kept (h : OfDelivery (m.active user) entries) (hpasses : Passes clock n m entries m')
    {request : Request} {answer : Except PushError Reply}
    (hentry : ⟨.send e request, answer⟩ ∈ entries)
    (hnone : ending? (request.token, answer) = none) :
    m'.get? request.token = m.get? request.token := by
  refine hpasses.get?_eq ?_
  rw [h.marks]
  exact not_mem_endings h.once (mem_replies.mpr ⟨e, request, hentry, rfl⟩) hnone

/-- The records that change are those of the tokens that are marked. -/
theorem changed_iff (h : OfDelivery (m.active user) entries) (hpasses : Passes clock n m entries m')
    (token : String) :
    m'.get? token ≠ m.get? token ↔ token ∈ (Push.marks entries).map Prod.fst := by
  constructor
  · exact fun hne => Decidable.by_contra fun hnot => hne (hpasses.get?_eq hnot)
  · rw [h.marks]
    intro htoken
    obtain ⟨⟨_, reason⟩, hin, rfl⟩ := List.mem_map.mp htoken
    obtain ⟨e, request, reply, hentry, hends, rfl, -⟩ := mem_endings.mp hin
    obtain ⟨record, k, hget, hactive, hafter⟩ := h.ended hpasses hentry hends
    rw [hafter, hget]
    intro heq
    rw [← Option.some.inj heq] at hactive
    cases hactive

/-- They are listed, and a reply in an open session ended their use. -/
theorem marked_iff (h : OfDelivery (m.active user) entries) (token : String) :
    token ∈ (Push.marks entries).map Prod.fst ↔
      ∃ a ∈ m.active user, a.token = token ∧ ⟨.openSession a.environment, .ok ()⟩ ∈ entries ∧
        ∃ request reply, ⟨.send a.environment request, .ok reply⟩ ∈ entries ∧
          request.token = token ∧ reply.EndsUse := by
  rw [h.marks]
  constructor
  · intro htoken
    obtain ⟨⟨_, reason⟩, hin, rfl⟩ := List.mem_map.mp htoken
    obtain ⟨e, request, reply, hentry, hends, rfl, -⟩ := mem_endings.mp hin
    obtain ⟨hopen, a, ha, rfl, heq⟩ := h.sent e request _ hentry
    exact ⟨a, ha, heq.symm, hopen, request, reply, hentry, rfl, hends⟩
  · rintro ⟨a, -, -, -, request, reply, hentry, rfl, hends⟩
    have hin := mem_endings.mpr ⟨_, request, reply, hentry, hends, rfl, rfl⟩
    exact List.mem_map_of_mem hin

end OfDelivery

/-- Each token is in one of the two tiers. -/
theorem tiers_perm (tokens : List ActiveToken) :
    (tokens.filter (·.environment == .development) ++
      tokens.filter (·.environment == .production)).Perm tokens := by
  have hother (a : ActiveToken) : (a.environment == .production) =
      !(a.environment == .development) := by cases a.environment <;> rfl
  simp only [hother]
  exact List.filter_append_perm _ tokens

namespace Dispatcher

variable {τ : Type} (d : Dispatcher) (t : Transport τ) (clock : Nat → Instant)
  (w : World Memory τ) (user : UserId) (p : Payload)

theorem sendToUser_of_not_isEnabled {d : Dispatcher} (hd : d.isEnabled = false) (user : UserId)
    (p : Payload) : d.sendToUser user p = .done (Report.ofSkip .notConfigured) := by
  rw [sendToUser, if_pos (by simp [hd])]
  rfl

/-- What is served tier by tier is served once for each token. -/
theorem tiers_nodup (listing : List ActiveToken) (h : (listing.map (·.token)).Nodup) :
    ((listing.filter (·.environment == .development)).map (·.token) ++
      (listing.filter (·.environment == .production)).map (·.token)).Nodup := by
  rw [← List.map_append]
  exact ((tiers_perm listing).map (·.token)).nodup_iff.mpr h

/-- Whoever answers: with a listing that has no token twice. -/
theorem ofDelivery_of_listed {d : Dispatcher} {tokens : List ActiveToken}
    (hlist : d.isEnabled = true → (service (.list user) s).1 = .ok tokens)
    (honce : (tokens.map (·.token)).Nodup) :
    OfDelivery tokens ((d.sendToUser user p).entries service s) := by
  cases hd : d.isEnabled with
  | false =>
    rw [sendToUser_of_not_isEnabled hd]
    exact ⟨rfl, .nil, nofun⟩
  | true =>
    obtain ⟨development, production, hentries, hdevelopment, hproduction⟩ :=
      exists_aboutTiers hd service user p s (hlist hd)
    rw [hentries]
    refine ⟨?marks, ?once, ?sent⟩
    case marks =>
      rw [marks_cons_of_ne (by simp), marks_append, hdevelopment.marks_eq, hproduction.marks_eq,
        ← endings_append]
      rfl
    case once =>
      have hsub := hdevelopment.replies_sublist.append hproduction.replies_sublist
      rw [← List.map_append, ← replies_append] at hsub
      exact (tiers_nodup _ honce).sublist hsub
    case sent =>
      intro e request answer hin
      have hlisted {e : Environment} {a : ActiveToken}
          (ha : a ∈ tokens.filter (·.environment == e)) : a ∈ tokens ∧ a.environment = e := by
        simpa using List.mem_filter.mp ha
      rcases List.mem_cons.mp hin with heq | hin
      · cases heq
      · rcases List.mem_append.mp hin with hin | hin
        · obtain ⟨rfl, hopen, a, ha, htoken⟩ := hdevelopment.send_mem hin rfl
          obtain ⟨hactive, he⟩ := hlisted ha
          exact ⟨by simp [hopen], a, hactive, he, htoken⟩
        · obtain ⟨rfl, hopen, a, ha, htoken⟩ := hproduction.send_mem hin rfl
          obtain ⟨hactive, he⟩ := hlisted ha
          exact ⟨by simp [hopen], a, hactive, he, htoken⟩

theorem ofDelivery_sendToUser :
    OfDelivery (w.store.active user)
      ((d.sendToUser user p).entries ((serviceOf memory d t).clocked clock) (w, 0)) :=
  ofDelivery_of_listed _ _ user p (fun _ => rfl) (w.store.active_nodup user)

theorem invalidated_sendToUser :
    ((d.sendToUser user p).run service s).1.invalidated =
      confirmed ((d.sendToUser user p).entries service s) := by
  cases hd : d.isEnabled with
  | false =>
    rw [sendToUser_of_not_isEnabled hd]
    rfl
  | true =>
    rw [sendToUser_eq hd, Plan.run, Plan.entries]
    rcases service (.list user) s with ⟨cause | _ | ⟨a, rest⟩, s'⟩
    · rfl
    · rfl
    · simp only [invalidated_deliverGroups]
      rfl

/-- What a delivery makes of a store, of the listings and of the report,
according to the journal that it leaves. -/
structure FollowsReplies (before after : Memory) (clock : Nat → Instant) (user : UserId)
    (journal : List Entry) (report : Report) : Prop where
  /-- A record changes if it is that of an active token of the user, in a
  tier whose session opened, and a reply ended its use. -/
  changed : ∀ token, after.get? token ≠ before.get? token ↔
    ∃ a ∈ before.active user, a.token = token ∧
      ⟨.openSession a.environment, .ok ()⟩ ∈ journal ∧
      ∃ request reply, ⟨.send a.environment request, .ok reply⟩ ∈ journal ∧
        request.token = token ∧ reply.EndsUse
  /-- The record is then out of use from some time in the delivery on, for
  the reason in the reply; the rest of it stays. -/
  ended : ∀ e request reply, ⟨.send e request, .ok reply⟩ ∈ journal → reply.EndsUse →
    ∃ record k, before.get? request.token = some record ∧ record.isActive = true ∧
      after.get? request.token =
        some { record with
          updatedAt := clock k
          invalidatedAt := some (clock k)
          invalidatedReason := some (reply.reason.getD "status 410") }
  lost : ∀ e request cause, ⟨.send e request, .error cause⟩ ∈ journal →
    after.get? request.token = before.get? request.token
  kept : ∀ e request reply, ⟨.send e request, .ok reply⟩ ∈ journal → ¬ reply.EndsUse →
    after.get? request.token = before.get? request.token
  /-- A body that cannot be read ends nothing. -/
  unread : ∀ e request status id body, ⟨.send e request, .ok (.ofParts status id body)⟩ ∈ journal →
    reasonOf body = none → status ≠ 410 →
    after.get? request.token = before.get? request.token
  reported : report.invalidated = (endings journal).map Prod.fst
  reported_once : report.invalidated.Nodup
  mem_reported : ∀ token, token ∈ report.invalidated ↔ after.get? token ≠ before.get? token
  listing : ∀ u, after.active u =
    (before.active u).filter fun a => !report.invalidated.contains a.token

/-- **A delivery does to a memory store what the replies say.** Whatever the
transport answers and whatever the clock shows at each call, a record is
changed exactly where a reply ends the use of its token, and the report
lists these tokens in the order of the requests. -/
theorem store_follows_replies (user : UserId) (p : Payload) :
    let result := (d.sendToUser user p).run ((serviceOf memory d t).clocked clock).recorded
      ((w, 0), [])
    FollowsReplies w.store result.2.1.1.store clock user result.2.2 result.1 := by
  rw [Plan.run_recorded, List.nil_append]
  have hpasses := (d.sendToUser user p).passes d t clock w 0
  have h := d.ofDelivery_sendToUser t clock w user p
  have hconfirmed := hpasses.confirmed_eq h.ended_once h.exists_record
  rw [← invalidated_sendToUser] at hconfirmed
  refine ⟨?changed, ?ended, ?lost, ?kept, ?unread, ?reported, ?reported_once, ?mem_reported,
    ?listing⟩
  case changed => exact fun token => (h.changed_iff hpasses token).trans (h.marked_iff token)
  case ended => exact fun e request reply hentry hends => h.ended hpasses hentry hends
  case lost => exact fun e request cause hentry => h.kept hpasses hentry rfl
  case kept => exact fun e request reply hentry hnot => h.kept hpasses hentry (if_neg hnot)
  case unread =>
    intro e request status id body hentry hreason hne
    have hnot := mt (Reply.endsUse_ofParts hreason status id).mp hne
    exact h.kept hpasses hentry (if_neg hnot)
  case reported => rw [hconfirmed, h.marks]
  case reported_once => rw [hconfirmed]; exact h.ended_once
  case mem_reported => intro token; rw [hconfirmed]; exact (h.changed_iff hpasses token).symm
  case listing => intro u; rw [hconfirmed]; exact hpasses.active_eq u

end Dispatcher

end Runwatch.Push
