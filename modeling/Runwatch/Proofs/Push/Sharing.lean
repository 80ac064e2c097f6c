/-
Runwatch.Proofs.Push.Sharing — deliveries that share a store.

Several deliveries may be under way on one memory store, and devices may
register meanwhile. The store takes one call after the other, so that what
happens is a list of moments: a delivery makes its next call, or somebody
registers a token. A request stands where it is sent, with the reply that it
will get; whatever comes between the two stands behind it.

  §1 Moments  — the steps of deliveries and registrations (`Shared.Step`),
                and the journal of one delivery among the others
                (`journalOf`).
  §2 Records  — what becomes of one record, and that one mark at most finds
                it active (`Run.course`).
  §3 Journals — each delivery leaves a journal as if it were alone
                (`Run.delivery`).
  §4 Marks    — every end of a token's use is reported by one delivery
                (`marks_reported_once`).
  §5 Returns  — a token that is registered during a delivery stays in use,
                unless a mark is still to come (`returned_token_in_use_iff`).
-/
import Runwatch.Proofs.Push.Account

namespace Runwatch.Push

open Store (Memory memory StoreError)
open Time (Instant)

/-! ## §1 Moments -/

/-- What happens to a shared store. -/
inductive Moment where
  /-- A delivery makes its next call, with the answer that it gets. -/
  | call (who : Nat) (now : Instant) (entry : Entry)
  /-- Somebody registers a token. -/
  | registered (now : Instant) (r : Registration)

/-- The calls of one delivery with their answers. -/
def journalOf (who : Nat) (trace : List Moment) : List Entry :=
  trace.filterMap fun
    | .call who' _ entry => if who' = who then some entry else none
    | .registered _ _ => none

/-- Deliveries, as far as each of them has got, and the store. -/
structure Shared where
  plans : List (Plan Report)
  store : Memory

/-- How a store answers a call, and what it becomes: it lists and marks;
whatever has nothing to do with it may be answered in any way. -/
inductive Answers (now : Instant) (m : Memory) : Entry → Memory → Prop where
  | list (user : UserId) : Answers now m ⟨.list user, .ok (m.active user)⟩ m
  | mark (token reason : String) :
      Answers now m ⟨.mark token reason, .ok (m.mark now token reason).2⟩
        (m.mark now token reason).1
  | other (entry : Entry) (hlist : ∀ user, entry.call ≠ .list user)
      (hmark : ∀ token reason, entry.call ≠ .mark token reason) : Answers now m entry m

namespace Shared

inductive Step : Shared → Moment → Shared → Prop where
  | call {s : Shared} {who : Nat} {now : Instant} {c : Call} {next : c.Answer → Plan Report}
      {answer : c.Answer} {m : Memory} (hplan : s.plans[who]? = some (.ask c next))
      (hanswers : Answers now s.store ⟨c, answer⟩ m) :
      Step s (.call who now ⟨c, answer⟩) ⟨s.plans.set who (next answer), m⟩
  | registers {s : Shared} (now : Instant) (r : Registration) :
      Step s (.registered now r) { s with store := (s.store.register now r).1 }

/-- Moments in their order. -/
inductive Run : Shared → List Moment → Shared → Prop where
  | nil {s} : Run s [] s
  | cons {s moment s' rest s''} (hstep : Step s moment s') (hrest : Run s' rest s'') :
      Run s (moment :: rest) s''

variable {s s' s'' : Shared} {trace : List Moment}

theorem Run.exists_of_append {before after : List Moment} (h : Run s (before ++ after) s'') :
    ∃ s', Run s before s' ∧ Run s' after s'' := by
  induction before generalizing s with
  | nil => exact ⟨s, .nil, h⟩
  | cons moment rest ih =>
    cases h with
    | cons hstep hrest =>
      obtain ⟨s', hbefore, hafter⟩ := ih hrest
      exact ⟨s', .cons hstep hbefore, hafter⟩

theorem Run.append {before after : List Moment} (h : Run s before s') (h' : Run s' after s'') :
    Run s (before ++ after) s'' := by
  induction h with
  | nil => exact h'
  | cons hstep _ ih => exact .cons hstep (ih h')

theorem Run.length_plans (h : Run s trace s') : s'.plans.length = s.plans.length := by
  induction h with
  | nil => rfl
  | cons hstep _ ih =>
    rw [ih]
    cases hstep with
    | call => exact List.length_set
    | registers => rfl

/-- Every delivery goes its own way through its own journal. -/
theorem Run.leads (h : Run s trace s') {i : Nat} {plan : Plan Report}
    (hplan : s.plans[i]? = some plan) :
    ∃ plan', s'.plans[i]? = some plan' ∧ plan.Leads (journalOf i trace) plan' := by
  induction h generalizing plan with
  | nil => exact ⟨plan, hplan, .nil plan⟩
  | @cons s moment s₁ rest s'' hstep _ ih =>
    cases hstep with
    | registers now r => exact ih hplan
    | @call who now c next answer m hasks _ =>
      by_cases hwho : who = i
      · subst hwho
        obtain rfl := Option.some.inj (hasks.symm.trans hplan)
        have hlt : who < s.plans.length := (List.getElem?_eq_some_iff.mp hasks).1
        have hnext : (s.plans.set who (next answer))[who]? = some (next answer) :=
          List.getElem?_set_self hlt
        obtain ⟨plan', hafter, hleads⟩ := ih hnext
        refine ⟨plan', hafter, ?_⟩
        simpa [journalOf] using hleads.cons answer
      · have hnext : (s.plans.set who (next answer))[i]? = some plan := by
          rwa [List.getElem?_set_ne hwho]
        obtain ⟨plan', hafter, hleads⟩ := ih hnext
        refine ⟨plan', hafter, ?_⟩
        simpa [journalOf, hwho] using hleads

/-- The entries of a journal are moments of its delivery. -/
theorem mem_journalOf {i : Nat} {entry : Entry} :
    entry ∈ journalOf i trace ↔ ∃ now, .call i now entry ∈ trace := by
  unfold journalOf
  rw [List.mem_filterMap]
  constructor
  · rintro ⟨moment, hmoment, hsome⟩
    cases moment with
    | registered => cases hsome
    | call who now entry' =>
      simp only [Option.ite_none_right_eq_some, Option.some.injEq] at hsome
      obtain ⟨rfl, rfl⟩ := hsome
      exact ⟨now, hmoment⟩
  · rintro ⟨now, hmoment⟩
    exact ⟨_, hmoment, if_pos rfl⟩

/-- A call is answered by the store as it is by then. -/
theorem Run.answers (h : Run s trace s') {i : Nat} {now : Instant} {entry : Entry}
    (hin : .call i now entry ∈ trace) :
    i < s.plans.length ∧ ∃ before after s₁ m, trace = before ++ after ∧ Run s before s₁ ∧
      Answers now s₁.store entry m := by
  obtain ⟨before, after, rfl⟩ := List.append_of_mem hin
  obtain ⟨s₁, hbefore, hafter⟩ := h.exists_of_append
  cases hafter with
  | cons hstep _ =>
    cases hstep with
    | call hplan hanswers =>
      have hlt := (List.getElem?_eq_some_iff.mp hplan).1
      rw [hbefore.length_plans] at hlt
      exact ⟨hlt, before, _, s₁, _, rfl, hbefore, hanswers⟩

/-- The calls of a delivery, one right behind the other. -/
def calls (who : Nat) (clock : Nat → Instant) : Nat → List Entry → List Moment
  | _, [] => []
  | n, entry :: rest => .call who (clock n) entry :: calls who clock (n + 1) rest

/-- Nobody comes between the calls of one delivery. -/
theorem run_calls {plans : List (Plan Report)} {who : Nat} {plan plan' : Plan Report}
    {entries : List Entry} {clock : Nat → Instant} {n : Nat} {m m' : Memory}
    (hplan : plans[who]? = some plan) (hleads : plan.Leads entries plan')
    (hpasses : Passes clock n m entries m') :
    Run ⟨plans, m⟩ (calls who clock n entries) ⟨plans.set who plan', m'⟩ := by
  induction hleads generalizing plans n m with
  | nil plan =>
    cases hpasses
    obtain ⟨hlt, rfl⟩ := List.getElem?_eq_some_iff.mp hplan
    rw [List.set_getElem_self]
    exact .nil
  | @cons c next answer rest plan _ ih =>
    have hlt : who < plans.length := (List.getElem?_eq_some_iff.mp hplan).1
    have hnext : (plans.set who (next answer))[who]? = some (next answer) :=
      List.getElem?_set_self hlt
    rw [← List.set_set (next answer)]
    cases hpasses with
    | list user hrest => exact .cons (.call hplan (.list user)) (ih hnext hrest)
    | mark token reason hrest => exact .cons (.call hplan (.mark token reason)) (ih hnext hrest)
    | other _ hlist hmark hrest =>
      exact .cons (.call hplan (.other _ hlist hmark)) (ih hnext hrest)

/-- A delivery that is carried out in one go is alone on its store. -/
theorem run_alone {τ : Type} (d : Dispatcher) (t : Transport τ) (clock : Nat → Instant)
    (plan : Plan Report) (w : World Memory τ) :
    let service := (serviceOf memory d t).clocked clock
    Run ⟨[plan], w.store⟩ (calls 0 clock 0 (plan.entries service (w, 0)))
      ⟨[.done (plan.run service (w, 0)).1], (plan.run service (w, 0)).2.1.store⟩ :=
  run_calls rfl (plan.leads_entries _ (w, 0)) (plan.passes d t clock w 0)

end Shared

/-! ## §2 Records -/

/-- A mark of a delivery finds a token active. -/
def Finds (trace : List Moment) (who : Nat) (token : String) : Prop :=
  ∃ now reason, .call who now ⟨.mark token reason, .ok true⟩ ∈ trace

/-- What becomes of the record of a token that nobody registers. If it is in
use, the first mark of it ends that, and no other mark finds it so. -/
inductive Course (token : String) (trace : List Moment) (before after : Option DeviceToken) :
    Prop where
  | unused (hinactive : ∀ r, before = some r → r.isActive = false) (hsame : after = before)
      (hnobody : ∀ who, ¬ Finds trace who token)
  | kept (record : DeviceToken) (hbefore : before = some record) (hactive : record.isActive = true)
      (hsame : after = some record)
      (hunmarked : ∀ who now reason answer, .call who now ⟨.mark token reason, answer⟩ ∉ trace)
  | ended (record : DeviceToken) (hbefore : before = some record)
      (hactive : record.isActive = true) (who : Nat) (now : Instant) (reason : String)
      (hmark : .call who now ⟨.mark token reason, .ok true⟩ ∈ trace)
      (hafter : after = some (Memory.invalidated record now reason))
      (hfirst : ∀ who' now' reason', .call who' now' ⟨.mark token reason', .ok true⟩ ∈ trace →
        who' = who ∧ reason' = reason)

namespace Course

variable {token : String} {trace : List Moment} {before after : Option DeviceToken}

theorem nil (before : Option DeviceToken) : Course token [] before before := by
  cases before with
  | none =>
    refine .unused nofun rfl ?_
    rintro _ ⟨_, _, hin⟩
    cases hin
  | some record =>
    cases hactive : record.isActive with
    | true => exact .kept record rfl hactive rfl (by simp)
    | false =>
      refine .unused (fun r hr => Option.some.inj hr ▸ hactive) rfl ?_
      rintro _ ⟨_, _, hin⟩
      cases hin

/-- What does not mark the token is of no account. -/
theorem cons (h : Course token trace before after) {moment : Moment}
    (hnot : ∀ who now reason answer, moment ≠ .call who now ⟨.mark token reason, answer⟩) :
    Course token (moment :: trace) before after := by
  have hrest {who : Nat} {now : Instant} {reason : String} {answer : Except StoreError Bool}
      (hin : .call who now ⟨.mark token reason, answer⟩ ∈ moment :: trace) :
      .call who now ⟨.mark token reason, answer⟩ ∈ trace :=
    (List.mem_cons.mp hin).resolve_left fun heq => hnot _ _ _ _ heq.symm
  cases h with
  | unused hinactive hsame hnobody =>
    refine .unused hinactive hsame ?_
    rintro who ⟨now, reason, hin⟩
    exact hnobody who ⟨now, reason, hrest hin⟩
  | kept record hbefore hactive hsame hunmarked =>
    exact .kept record hbefore hactive hsame fun _ _ _ _ hin => hunmarked _ _ _ _ (hrest hin)
  | ended record hbefore hactive who now reason hmark hafter hfirst =>
    exact .ended record hbefore hactive who now reason (List.mem_cons_of_mem _ hmark) hafter
      fun _ _ _ hin => hfirst _ _ _ (hrest hin)

/-- A mark that finds the token in use ends that, and the others come too
late. -/
theorem first {record : DeviceToken} (hactive : record.isActive = true) {now : Instant}
    {reason : String} (who : Nat)
    (h : Course token trace (some (Memory.invalidated record now reason)) after) :
    Course token (.call who now ⟨.mark token reason, .ok true⟩ :: trace) (some record) after := by
  cases h with
  | kept _ hbefore hlater => cases Option.some.inj hbefore ▸ hlater
  | ended _ hbefore hlater => cases Option.some.inj hbefore ▸ hlater
  | unused _ hsame hnobody =>
    refine .ended record rfl hactive who now reason List.mem_cons_self hsame ?_
    intro who' now' reason' hin
    rcases List.mem_cons.mp hin with heq | hin
    · cases heq
      exact ⟨rfl, rfl⟩
    · exact absurd ⟨now', reason', hin⟩ (hnobody who')

/-- A mark that comes too late is told so. -/
theorem late (hinactive : ∀ r, before = some r → r.isActive = false)
    (h : Course token trace before after) (who : Nat) (now : Instant) (reason : String) :
    Course token (.call who now ⟨.mark token reason, .ok false⟩ :: trace) before after := by
  cases h with
  | kept _ hbefore hactive => cases (hinactive _ hbefore).symm.trans hactive
  | ended _ hbefore hactive => cases (hinactive _ hbefore).symm.trans hactive
  | unused _ hsame hnobody =>
    refine .unused hinactive hsame ?_
    rintro who' ⟨now', reason', hin⟩
    rcases List.mem_cons.mp hin with heq | hin
    · cases heq
    · exact hnobody who' ⟨now', reason', hin⟩

end Course

namespace Shared

variable {s s' s'' : Shared} {trace : List Moment} {token : String}

/-- A moment touches a record by registering or marking its token only. -/
theorem Step.record {moment : Moment} (hstep : Step s moment s')
    (hother : ∀ now r, moment = .registered now r → r.token ≠ token) :
    (∃ who now reason,
      moment = .call who now ⟨.mark token reason, .ok (s.store.mark now token reason).2⟩ ∧
      s'.store = (s.store.mark now token reason).1) ∨
    ((∀ who now reason answer, moment ≠ .call who now ⟨.mark token reason, answer⟩) ∧
      s'.store.get? token = s.store.get? token) := by
  cases hstep with
  | registers now r =>
    refine .inr ⟨nofun, ?_⟩
    rw [Memory.get?_register, if_neg (hother now r rfl)]
  | @call who now c next answer m hplan hanswers =>
    cases hanswers with
    | list user => exact .inr ⟨nofun, rfl⟩
    | mark marked reason =>
      by_cases htoken : marked = token
      · subst htoken
        exact .inl ⟨who, now, reason, rfl, rfl⟩
      · refine .inr ⟨fun _ _ _ _ heq => ?_, ?_⟩
        · cases heq
          exact htoken rfl
        · rw [Memory.get?_mark, if_neg htoken]
    | other _ _ hmark =>
      refine .inr ⟨fun _ _ reason _ heq => ?_, rfl⟩
      cases heq
      exact hmark token reason rfl

theorem Run.course (h : Run s trace s')
    (hother : ∀ now r, .registered now r ∈ trace → r.token ≠ token) :
    Course token trace (s.store.get? token) (s'.store.get? token) := by
  induction h with
  | nil => exact .nil _
  | @cons s moment s₁ rest s'' hstep _ ih =>
    have hrest := ih fun now r hin => hother now r (List.mem_cons_of_mem _ hin)
    rcases hstep.record fun now r heq => hother now r (heq ▸ List.mem_cons_self) with
      ⟨who, now, reason, rfl, hstore⟩ | ⟨hnot, hsame⟩
    · rcases Memory.mark_cases s.store now token reason with
        ⟨record, hget, hactive, hmark⟩ | ⟨hinactive, hmark⟩
      · have hended : s₁.store.get? token = some (Memory.invalidated record now reason) := by
          rw [hstore, Memory.get?_mark, if_pos rfl, hget, Option.map_some, Memory.marked,
            if_pos hactive]
        rw [hended] at hrest
        rw [hmark, hget]
        exact .first hactive who hrest
      · rw [hstore, hmark] at hrest
        rw [hmark]
        exact .late hinactive hrest who now reason
    · rw [hsame] at hrest
      exact hrest.cons hnot

end Shared

/-! ## §3 Journals -/

/-- What one delivery among others leaves: a mark for each reply that ends
the use of a token, no two requests for one token, and a report that counts
what its own journal tells. -/
structure Journaled (entries : List Entry) (report : Report) : Prop where
  marks : marks entries = endings entries
  once : ((replies entries).map Prod.fst).Nodup
  accounts : Accounts entries report
  answered : ∀ token reason answer, ⟨.mark token reason, answer⟩ ∈ entries →
    ∃ found, answer = .ok found
  listed : ∀ token answer, (token, answer) ∈ replies entries → token ∈ listed entries

namespace Journaled

variable {entries : List Entry} {report : Report} {token : String} {reply : Reply}

/-- A reply that ends the use of a token is followed by a mark. -/
theorem exists_mark (h : Journaled entries report) (hreply : (token, .ok reply) ∈ replies entries)
    (hends : reply.EndsUse) :
    ∃ found, ⟨.mark token (reply.reason.getD "status 410"), .ok found⟩ ∈ entries := by
  have hended : (token, reply.reason.getD "status 410") ∈ Push.marks entries := by
    rw [h.marks]
    exact List.mem_filterMap.mpr ⟨_, hreply, ending?_eq_some.mpr ⟨reply, rfl, hends, rfl⟩⟩
  obtain ⟨answer, hentry⟩ := mem_marks.mp hended
  obtain ⟨found, rfl⟩ := h.answered _ _ _ hentry
  exact ⟨found, hentry⟩

/-- Behind a mark stands such a reply. -/
theorem exists_reply (h : Journaled entries report) {reason : String}
    {answer : Except StoreError Bool} (hentry : ⟨.mark token reason, answer⟩ ∈ entries) :
    ∃ reply, (token, .ok reply) ∈ replies entries ∧ reply.EndsUse ∧
      reply.reason.getD "status 410" = reason := by
  have hended : (token, reason) ∈ endings entries := by
    rw [← h.marks]
    exact mem_marks.mpr ⟨answer, hentry⟩
  obtain ⟨e, request, reply, hsend, hends, rfl, hreason⟩ := mem_endings.mp hended
  exact ⟨reply, mem_replies.mpr ⟨e, request, hsend, rfl⟩, hends, hreason⟩

theorem reply_unique (h : Journaled entries report) {answer answer' : Except PushError Reply}
    (hreply : (token, answer) ∈ replies entries) (hreply' : (token, answer') ∈ replies entries) :
    answer = answer' :=
  (Prod.mk.inj (List.inj_on_of_nodup_map h.once hreply hreply' rfl)).2

/-- A token whose use a reply ends counts as neither delivered nor failed. -/
theorem not_counted (h : Journaled entries report) (hreply : (token, .ok reply) ∈ replies entries)
    (hends : reply.EndsUse) : token ∉ deliveries entries ∧ token ∉ failures entries := by
  constructor
  · intro hin
    obtain ⟨reply', hreply', hsuccess⟩ := mem_deliveries.mp hin
    obtain rfl := Except.ok.inj (h.reply_unique hreply hreply')
    exact hends.1 hsuccess
  · intro hin
    obtain ⟨found, hmark⟩ := h.exists_mark hreply hends
    have hnot := (List.mem_filter.mp hin).2
    simp [mem_settled_of_mark hmark] at hnot

theorem nodup_invalidated (h : Journaled entries report) : report.invalidated.Nodup := by
  rw [h.accounts.invalidated]
  refine List.Nodup.sublist (confirmed_sublist entries) ?_
  rw [h.marks]
  exact h.once.sublist (endings_tokens_sublist entries)

end Journaled

namespace Shared

variable {s s' : Shared} {trace : List Moment} {i : Nat} {d : Dispatcher} {user : UserId}
  {p : Payload} {report : Report}

/-- A listing is one of the store as it is by then. -/
theorem Run.list_answer (h : Run s trace s') {answer : Except StoreError (List ActiveToken)}
    (hin : ⟨.list user, answer⟩ ∈ journalOf i trace) :
    ∃ before after s₁, trace = before ++ after ∧ Run s before s₁ ∧
      answer = .ok (s₁.store.active user) := by
  obtain ⟨now, hmoment⟩ := mem_journalOf.mp hin
  obtain ⟨-, before, after, s₁, m, htrace, hbefore, hanswers⟩ := h.answers hmoment
  refine ⟨before, after, s₁, htrace, hbefore, ?_⟩
  cases hanswers with
  | list => rfl
  | other _ hlist _ => exact absurd rfl (hlist user)

theorem Run.mark_answer (h : Run s trace s') {token reason : String}
    {answer : Except StoreError Bool} (hin : ⟨.mark token reason, answer⟩ ∈ journalOf i trace) :
    ∃ found, answer = .ok found := by
  obtain ⟨now, hmoment⟩ := mem_journalOf.mp hin
  obtain ⟨-, before, after, s₁, m, -, -, hanswers⟩ := h.answers hmoment
  cases hanswers with
  | mark => exact ⟨_, rfl⟩
  | other _ _ hmark => exact absurd rfl (hmark token reason)

/-- Who is listed was in use, unless it was registered meanwhile. -/
theorem Run.active_of_listed (h : Run s trace s') {token : String}
    (hother : ∀ now r, .registered now r ∈ trace → r.token ≠ token)
    (hlisted : token ∈ listed (journalOf i trace)) :
    ∃ record, s.store.get? token = some record ∧ record.isActive = true := by
  obtain ⟨user, tokens, hentry, a, ha, rfl⟩ := mem_listed.mp hlisted
  obtain ⟨before, after, s₁, rfl, hbefore, hanswer⟩ := h.list_answer hentry
  rw [Except.ok.inj hanswer] at ha
  obtain ⟨record, hget, -, hactive, -⟩ := Memory.mem_active.mp ha
  have hcourse := hbefore.course fun now r hin => hother now r (List.mem_append_left _ hin)
  cases hcourse with
  | unused hinactive hsame _ =>
    rw [hsame] at hget
    cases (hinactive record hget).symm.trans hactive
  | kept record' hbefore hactive' _ _ => exact ⟨record', hbefore, hactive'⟩
  | ended record' hbefore hactive' => exact ⟨record', hbefore, hactive'⟩

/-- A journal is a script that lists what the store has listed. -/
theorem Run.listed_nodup (h : Run s trace s') {tokens : List ActiveToken}
    (hlist : (scripted (.list user) (journalOf i trace)).1 = .ok tokens) :
    (tokens.map (·.token)).Nodup := by
  have hin : ⟨.list user, .ok tokens⟩ ∈ journalOf i trace := by
    cases hentries : journalOf i trace with
    | nil =>
      rw [hentries] at hlist
      cases hlist
    | cons entry rest =>
      obtain ⟨c, answer⟩ := entry
      rw [hentries] at hlist
      by_cases hcall : c = .list user
      · subst hcall
        rw [Plan.scripted_cons] at hlist
        obtain rfl : answer = .ok tokens := hlist
        exact List.mem_cons_self
      · rw [scripted, dif_neg hcall] at hlist
        cases hlist
  obtain ⟨_, _, s₁, -, -, hanswer⟩ := h.list_answer hin
  rw [Except.ok.inj hanswer]
  exact s₁.store.active_nodup user

/-- A delivery that is over has left a journal and a report as if it had
been alone. -/
theorem Run.delivery (h : Run s trace s') (hplan : s.plans[i]? = some (d.sendToUser user p))
    (hdone : s'.plans[i]? = some (.done report)) : Journaled (journalOf i trace) report := by
  obtain ⟨plan', hplan', hleads⟩ := h.leads hplan
  obtain rfl := Option.some.inj (hplan'.symm.trans hdone)
  obtain ⟨hrun, hentries⟩ := hleads.replay
  have haccounts := d.accounts_sendToUser scripted user p (journalOf i trace)
    fun _ hlist => h.listed_nodup hlist
  rw [hrun, hentries] at haccounts
  -- Only a dispatcher that is enabled asks for a listing.
  have hlisted : ∃ tokens : List ActiveToken, (d.isEnabled = true →
      (scripted (.list user) (journalOf i trace)).1 = .ok tokens) ∧
      (tokens.map (·.token)).Nodup ∧ tokens.map (·.token) ⊆ listed (journalOf i trace) := by
    cases hd : d.isEnabled with
    | false => exact ⟨[], nofun, .nil, List.nil_subset _⟩
    | true =>
      rw [Dispatcher.sendToUser_eq hd, Plan.entries] at hentries
      have hfirst := (congrArg (_ ∈ ·) hentries).mp List.mem_cons_self
      obtain ⟨_, _, s₁, -, -, hanswer⟩ := h.list_answer hfirst
      rw [hanswer] at hfirst
      refine ⟨s₁.store.active user, fun _ => hanswer, s₁.store.active_nodup user, ?_⟩
      exact fun token htoken => mem_listed.mpr ⟨user, _, hfirst, List.mem_map.mp htoken⟩
  obtain ⟨tokens, hlist, honce, hsub⟩ := hlisted
  have hdelivery := Dispatcher.ofDelivery_of_listed scripted (journalOf i trace) user p hlist honce
  rw [hentries] at hdelivery
  refine ⟨hdelivery.marks, hdelivery.once, haccounts, fun _ _ _ hin => h.mark_answer hin, ?_⟩
  intro token answer hreply
  obtain ⟨e, request, hentry, rfl⟩ := mem_replies.mp hreply
  obtain ⟨-, a, ha, -, htoken⟩ := hdelivery.sent e request answer hentry
  exact hsub (htoken ▸ List.mem_map_of_mem ha)

end Shared

/-! ## §4 Marks -/

/-- What deliveries that share a store make of it and of their reports. -/
structure ReportsOnce (before after : Memory) (journal : Nat → List Entry)
    (reports : List Report) : Prop where
  /-- No token is reported twice, neither by one delivery nor by two. -/
  once : (reports.flatMap (·.invalidated)).Nodup
  /-- It is reported if it was in use, and a reply to one of them ended that. -/
  reported_iff : ∀ token, token ∈ reports.flatMap (·.invalidated) ↔
    (∃ record, before.get? token = some record ∧ record.isActive = true) ∧
    ∃ i, i < reports.length ∧
      ∃ reply, (token, .ok reply) ∈ replies (journal i) ∧ reply.EndsUse
  /-- The store keeps the reason in the reply to the delivery that reports it. -/
  stored : ∀ i report, reports[i]? = some report → ∀ token ∈ report.invalidated,
    ∃ reply record now, (token, .ok reply) ∈ replies (journal i) ∧ reply.EndsUse ∧
      before.get? token = some record ∧
      after.get? token =
        some (Memory.invalidated record now (reply.reason.getD "status 410"))
  /-- Each report counts what its own journal tells. -/
  accounts : ∀ i report, reports[i]? = some report → Accounts (journal i) report
  /-- Whoever gets such a reply counts the token as neither delivered nor
  failed, and does not report it if another one does. -/
  passed_over : ∀ i report, reports[i]? = some report → ∀ token reply,
    (token, .ok reply) ∈ replies (journal i) → reply.EndsUse →
    token ∉ deliveries (journal i) ∧ token ∉ failures (journal i) ∧
      (token ∉ report.invalidated ↔
        ∃ j report', j ≠ i ∧ reports[j]? = some report' ∧ token ∈ report'.invalidated)

namespace Shared

variable {s s' : Shared} {sends : List (Dispatcher × UserId × Payload)} {m m' : Memory}
  {trace : List Moment} {reports : List Report} {i : Nat} {token : String}

/-- The deliveries that are to be made. -/
def ofSends (sends : List (Dispatcher × UserId × Payload)) (m : Memory) : Shared :=
  ⟨sends.map fun (d, user, p) => d.sendToUser user p, m⟩

/-- All of them are over. -/
def ofReports (reports : List Report) (m : Memory) : Shared := ⟨reports.map .done, m⟩

theorem Run.journaled (h : Run (ofSends sends m) trace (ofReports reports m'))
    {report : Report} (hreport : reports[i]? = some report) :
    Journaled (journalOf i trace) report := by
  have hlength : reports.length = sends.length := by
    simpa [ofSends, ofReports] using h.length_plans
  have hlt : i < sends.length := hlength ▸ (List.getElem?_eq_some_iff.mp hreport).1
  have hplan : (ofSends sends m).plans[i]? =
      some (sends[i].1.sendToUser sends[i].2.1 sends[i].2.2) := by
    simp [ofSends, hlt]
  have hdone : (ofReports reports m').plans[i]? = some (.done report) := by
    simp [ofReports, hreport]
  exact h.delivery hplan hdone

/-- A delivery reports the tokens that its marks find active. -/
theorem Run.mem_invalidated (h : Run (ofSends sends m) trace (ofReports reports m'))
    {report : Report} (hreport : reports[i]? = some report) :
    token ∈ report.invalidated ↔ Finds trace i token := by
  rw [(h.journaled hreport).accounts.invalidated, mem_confirmed]
  constructor
  · rintro ⟨reason, hentry⟩
    obtain ⟨now, hmoment⟩ := mem_journalOf.mp hentry
    exact ⟨now, reason, hmoment⟩
  · rintro ⟨now, reason, hmoment⟩
    exact ⟨reason, mem_journalOf.mpr ⟨now, hmoment⟩⟩

theorem Run.exists_report (h : Run (ofSends sends m) trace (ofReports reports m'))
    (hfinds : Finds trace i token) : ∃ report, reports[i]? = some report := by
  obtain ⟨now, reason, hmoment⟩ := hfinds
  have hlength := h.length_plans
  have hlt := (h.answers hmoment).1
  rw [← hlength] at hlt
  have hi : i < reports.length := by simpa [ofReports] using hlt
  exact ⟨reports[i], List.getElem?_eq_getElem hi⟩

/-- Of two deliveries that find a token in use one would come too late. -/
theorem Run.finds_unique (h : Run s trace s')
    (hother : ∀ now r, .registered now r ∈ trace → r.token ≠ token) {j : Nat}
    (hi : Finds trace i token) (hj : Finds trace j token) : i = j := by
  obtain ⟨now, reason, hi⟩ := hi
  obtain ⟨now', reason', hj⟩ := hj
  cases h.course hother with
  | unused _ _ hnobody => exact absurd ⟨now, reason, hi⟩ (hnobody i)
  | kept _ _ _ _ hunmarked => exact absurd hi (hunmarked _ _ _ _)
  | ended _ _ _ who _ _ _ _ hfirst =>
    exact (hfirst _ _ _ hi).1.trans (hfirst _ _ _ hj).1.symm

theorem Run.mem_reported (h : Run (ofSends sends m) trace (ofReports reports m')) :
    token ∈ reports.flatMap (·.invalidated) ↔
      ∃ i report, reports[i]? = some report ∧ Finds trace i token := by
  rw [List.mem_flatMap]
  constructor
  · rintro ⟨report, hreport, hin⟩
    obtain ⟨i, hi⟩ := List.getElem?_of_mem hreport
    exact ⟨i, report, hi, (h.mem_invalidated hi).mp hin⟩
  · rintro ⟨i, report, hi, hfinds⟩
    exact ⟨report, List.mem_of_getElem? hi, (h.mem_invalidated hi).mpr hfinds⟩

section Unregistered

variable (h : Run (ofSends sends m) trace (ofReports reports m'))
  (hother : ∀ now r, .registered now r ∈ trace → r.token ≠ token)

include h hother

/-- Who is told of an end marks the token, so that somebody has found it in
use. -/
theorem Run.exists_finds {report : Report} (hreport : reports[i]? = some report) {reply : Reply}
    (hreply : (token, .ok reply) ∈ replies (journalOf i trace)) (hends : reply.EndsUse) :
    ∃ j, Finds trace j token := by
  have hjournal := h.journaled hreport
  obtain ⟨found, hmark⟩ := hjournal.exists_mark hreply hends
  obtain ⟨now, hmoment⟩ := mem_journalOf.mp hmark
  obtain ⟨record, hget, hactive⟩ := h.active_of_listed hother (hjournal.listed _ _ hreply)
  cases h.course hother with
  | unused hinactive => cases (hinactive record hget).symm.trans hactive
  | kept _ _ _ _ hunmarked => exact absurd hmoment (hunmarked _ _ _ _)
  | ended _ _ _ who now' reason hfound => exact ⟨who, now', reason, hfound⟩

/-- Who finds it in use has got such a reply, and its reason is kept. -/
theorem Run.reply_of_finds {report : Report} (hreport : reports[i]? = some report)
    (hfinds : Finds trace i token) :
    ∃ reply record now, (token, .ok reply) ∈ replies (journalOf i trace) ∧ reply.EndsUse ∧
      m.get? token = some record ∧ record.isActive = true ∧
      m'.get? token =
        some (Memory.invalidated record now (reply.reason.getD "status 410")) := by
  obtain ⟨now, reason, hmoment⟩ := hfinds
  obtain ⟨reply, hreply, hends, rfl⟩ :=
    (h.journaled hreport).exists_reply (mem_journalOf.mpr ⟨now, hmoment⟩)
  cases h.course hother with
  | unused _ _ hnobody => exact absurd ⟨now, _, hmoment⟩ (hnobody i)
  | kept _ _ _ _ hunmarked => exact absurd hmoment (hunmarked _ _ _ _)
  | ended record hget hactive who now' reason' _ hafter hfirst =>
    obtain ⟨-, hreason⟩ := hfirst _ _ _ hmoment
    exact ⟨reply, record, now', hreply, hends, hget, hactive, hreason ▸ hafter⟩

end Unregistered

/-- **Each end of a token's use is reported once**, however the calls of the
deliveries fall between each other, as long as nobody registers meanwhile. -/
theorem marks_reported_once (sends : List (Dispatcher × UserId × Payload)) {m m' : Memory}
    {trace : List Moment} {reports : List Report}
    (hrun : Run (ofSends sends m) trace (ofReports reports m'))
    (hquiet : ∀ now r, .registered now r ∉ trace) :
    ReportsOnce m m' (fun i => journalOf i trace) reports := by
  have hother (token : String) : ∀ now r, .registered now r ∈ trace → r.token ≠ token :=
    fun now r hin => absurd hin (hquiet now r)
  refine ⟨?once, ?reported_iff, ?stored, ?accounts, ?passed_over⟩
  case once =>
    refine List.nodup_flatMap.mpr ⟨fun report hreport => ?_, ?_⟩
    · obtain ⟨i, hi⟩ := List.getElem?_of_mem hreport
      exact (hrun.journaled hi).nodup_invalidated
    · rw [List.pairwise_iff_getElem]
      intro i j hi hj hlt token hin hin'
      have hfirst := (hrun.mem_invalidated (List.getElem?_eq_getElem hi)).mp hin
      have hsecond := (hrun.mem_invalidated (List.getElem?_eq_getElem hj)).mp hin'
      exact Nat.ne_of_lt hlt (hrun.finds_unique (hother token) hfirst hsecond)
  case reported_iff =>
    intro token
    rw [hrun.mem_reported]
    constructor
    · rintro ⟨i, report, hreport, hfinds⟩
      obtain ⟨reply, record, _, hreply, hends, hget, hactive, -⟩ :=
        hrun.reply_of_finds (hother token) hreport hfinds
      exact ⟨⟨record, hget, hactive⟩, i, (List.getElem?_eq_some_iff.mp hreport).1, reply, hreply,
        hends⟩
    · rintro ⟨-, i, hi, reply, hreply, hends⟩
      obtain ⟨j, hfinds⟩ :=
        hrun.exists_finds (hother token) (List.getElem?_eq_getElem hi) hreply hends
      obtain ⟨report, hreport⟩ := hrun.exists_report hfinds
      exact ⟨j, report, hreport, hfinds⟩
  case stored =>
    intro i report hreport token hin
    obtain ⟨reply, record, now, hreply, hends, hget, -, hafter⟩ :=
      hrun.reply_of_finds (hother token) hreport ((hrun.mem_invalidated hreport).mp hin)
    exact ⟨reply, record, now, hreply, hends, hget, hafter⟩
  case accounts => exact fun i report hreport => (hrun.journaled hreport).accounts
  case passed_over =>
    intro i report hreport token reply hreply hends
    obtain ⟨hdelivered, hfailed⟩ := (hrun.journaled hreport).not_counted hreply hends
    refine ⟨hdelivered, hfailed, ?_, ?_⟩
    · intro hnot
      obtain ⟨j, hfinds⟩ := hrun.exists_finds (hother token) hreport hreply hends
      obtain ⟨report', hreport'⟩ := hrun.exists_report hfinds
      refine ⟨j, report', ?_, hreport', (hrun.mem_invalidated hreport').mpr hfinds⟩
      rintro rfl
      exact hnot ((hrun.mem_invalidated hreport).mpr hfinds)
    · rintro ⟨j, report', hne, hreport', hin'⟩ hin
      exact hne (hrun.finds_unique (hother token) ((hrun.mem_invalidated hreport').mp hin')
        ((hrun.mem_invalidated hreport).mp hin))

/-- A device of one user. -/
def phone : Registration := ⟨"a", ⟨"ada"⟩, .development, "app"⟩

/-- A store with that device. -/
def phones : Memory := (Memory.empty.register ⟨0, 0⟩ phone).1

theorem active_phones : phones.active ⟨"ada"⟩ = [⟨"a", .development, "app"⟩] := by
  simp [Memory.active, phones, Memory.register, Memory.put, Memory.empty, phone,
    DeviceToken.isActive, DeviceToken.toActive]

/-- A delivery to that device, up to a reply that ends the use of its token. -/
def told (reason : String) : List Entry :=
  [⟨.list ⟨"ada"⟩, .ok [⟨"a", .development, "app"⟩]⟩, ⟨.mint, .ok ⟨"jwt", ⟨0, 0⟩, ⟨3000, 0⟩⟩⟩,
   ⟨.openSession .development, .ok ()⟩,
   ⟨.send .development ⟨"a", "jwt", "app", Dispatcher.notification.wireText⟩,
     .ok ⟨410, some reason, none⟩⟩]

/-- The rest of it. -/
def closing (reason : String) (found : Bool) : List Entry :=
  [⟨.mark "a" reason, .ok found⟩, ⟨.close .development, ()⟩]

/-- What is reported of it, if the mark has found the token in use or not. -/
def counted (found : Bool) : Report :=
  { Report.empty with
    sessionsOpened := 1, attempted := 1, invalidated := if found then ["a"] else [] }

theorem leads_told (reason : String) (found : Bool) :
    (Dispatcher.smallest.sendToUser ⟨"ada"⟩ Dispatcher.notification).Leads
      (told reason ++ closing reason found) (.done (counted found)) := by
  cases found <;> exact .cons _ (.cons _ (.cons _ (.cons _ (.cons _ (.cons _ (.nil _))))))

/-- Up to the reply the store only lists. -/
theorem passes_told (clock : Nat → Instant) (n : Nat) (reason : String) :
    Passes clock n phones (told reason) phones := by
  rw [told, ← active_phones]
  exact .list _ (.other _ nofun nofun (.other _ nofun nofun (.other _ nofun nofun .nil)))

theorem passes_closing (clock : Nat → Instant) (n : Nat) (m : Memory) (reason : String) :
    Passes clock n m (closing reason (m.mark (clock n) "a" reason).2)
      (m.mark (clock n) "a" reason).1 :=
  .mark "a" reason (.other _ nofun nofun .nil)

/-- Two deliveries have listed the device before either of them marks it. The
second one is the first to do so. -/
def twiceTold : List Moment :=
  let clock (n : Nat) : Instant := ⟨n, 0⟩
  calls 0 clock 0 (told "Unregistered") ++ calls 1 clock 0 (told "ExpiredToken") ++
    (calls 1 clock 4 (closing "ExpiredToken" true) ++
      calls 0 clock 6 (closing "Unregistered" false))

/-- It alone reports the device, and the other one counts nothing. -/
theorem twiceTold_reported_once :
    let send := (Dispatcher.smallest, UserId.mk "ada", Dispatcher.notification)
    ∃ m', Run (ofSends [send, send] phones) twiceTold (ofReports [counted false, counted true] m') ∧
      (∀ now r, .registered now r ∉ twiceTold) ∧
      ReportsOnce phones m' (fun i => journalOf i twiceTold) [counted false, counted true] := by
  intro send
  let clock (n : Nat) : Instant := ⟨n, 0⟩
  let plan := Dispatcher.smallest.sendToUser ⟨"ada"⟩ Dispatcher.notification
  obtain ⟨waiting, hfirst, hlate⟩ := (leads_told "Unregistered" false).exists_of_append
  obtain ⟨waiting', hsecond, hearly⟩ := (leads_told "ExpiredToken" true).exists_of_append
  have htold : Run ⟨[plan, plan], phones⟩ (calls 0 clock 0 (told "Unregistered"))
      ⟨[waiting, plan], phones⟩ := run_calls rfl hfirst (passes_told clock 0 "Unregistered")
  have htold' : Run ⟨[waiting, plan], phones⟩ (calls 1 clock 0 (told "ExpiredToken"))
      ⟨[waiting, waiting'], phones⟩ := run_calls rfl hsecond (passes_told clock 0 "ExpiredToken")
  have hmarked : Run ⟨[waiting, waiting'], phones⟩
      (calls 1 clock 4 (closing "ExpiredToken" true)) ⟨[waiting, .done (counted true)], _⟩ :=
    run_calls rfl hearly (passes_closing clock 4 phones "ExpiredToken")
  have hmarked' : Run ⟨[waiting, .done (counted true)],
        (phones.mark (clock 4) "a" "ExpiredToken").1⟩
      (calls 0 clock 6 (closing "Unregistered" false))
      ⟨[.done (counted false), .done (counted true)], _⟩ :=
    run_calls rfl hlate
      (passes_closing clock 6 (phones.mark (clock 4) "a" "ExpiredToken").1 "Unregistered")
  have hrun : Run (ofSends [send, send] phones) twiceTold
      (ofReports [counted false, counted true] _) :=
    (htold.append htold').append (hmarked.append hmarked')
  have hquiet : ∀ now r, .registered now r ∉ twiceTold := by
    simp [twiceTold, calls, told, closing]
  exact ⟨_, hrun, hquiet, marks_reported_once [send, send] hrun hquiet⟩

end Shared

/-! ## §5 Returns -/

@[simp] theorem journalOf_append (i : Nat) (xs ys : List Moment) :
    journalOf i (xs ++ ys) = journalOf i xs ++ journalOf i ys := List.filterMap_append

@[simp] theorem journalOf_registered (i : Nat) (now : Instant) (r : Registration)
    (rest : List Moment) : journalOf i (.registered now r :: rest) = journalOf i rest := rfl

namespace Shared

/-- **A token that is registered again stays in use**, from its last
registration on and with what that says, unless the request before was
answered with the end of its use and the mark comes only behind the
registration: a mark knows the token and nothing of who registered it when. -/
theorem returned_token_in_use_iff (d : Dispatcher) (user : UserId) (p : Payload) {m m' : Memory}
    {before after : List Moment} {now : Instant} {r : Registration} {report : Report}
    (hrun : Run ⟨[d.sendToUser user p], m⟩ (before ++ .registered now r :: after)
      ⟨[.done report], m'⟩)
    (hsent : r.token ∈ (replies (journalOf 0 before)).map Prod.fst)
    (hlast : ∀ now' r', .registered now' r' ∈ after → r'.token ≠ r.token) :
    ∃ record, m'.get? r.token = some record ∧ record.user = r.user ∧
      record.environment = r.environment ∧ record.bundle = r.bundle ∧
      (record.isActive = true ↔
        ¬ ∃ reply, (r.token, .ok reply) ∈ replies (journalOf 0 before) ∧ reply.EndsUse ∧
          ∃ now' reason answer, .call 0 now' ⟨.mark r.token reason, answer⟩ ∈ after) := by
  have hjournal : Journaled (journalOf 0 (before ++ .registered now r :: after)) report :=
    hrun.delivery rfl rfl
  rw [journalOf_append, journalOf_registered] at hjournal
  obtain ⟨s₁, -, hbehind⟩ := hrun.exists_of_append
  cases hbehind with
  | cons hstep hafter =>
    cases hstep with
    | registers =>
      -- The registration enters a record in use; what is behind it is one course.
      have hentered : (s₁.store.register now r).1.get? r.token =
          some (s₁.store.register now r).2 := by
        rw [Memory.get?_register, if_pos rfl]
      have hcourse := hafter.course hlast
      simp only [hentered] at hcourse
      cases hcourse with
      | unused hinactive => cases hinactive _ rfl
      | kept record hbefore hactive hsame hunmarked =>
        obtain rfl := Option.some.inj hbefore
        refine ⟨_, hsame, rfl, rfl, rfl, iff_of_true hactive ?_⟩
        rintro ⟨_, -, -, now', reason, answer, hin⟩
        exact hunmarked _ _ _ _ hin
      | ended record hbefore hactive who now' reason hmark hended _ =>
        obtain rfl := Option.some.inj hbefore
        refine ⟨_, hended, rfl, rfl, rfl, iff_of_false Bool.false_ne_true (not_not_intro ?_)⟩
        have hlt := (hrun.answers (List.mem_append_right _ (List.mem_cons_of_mem _ hmark))).1
        obtain rfl : who = 0 := Nat.lt_one_iff.mp hlt
        have hentry : ⟨.mark r.token reason, .ok true⟩ ∈ journalOf 0 after :=
          mem_journalOf.mpr ⟨now', hmark⟩
        obtain ⟨reply, hreply, hends, -⟩ :=
          hjournal.exists_reply (List.mem_append_right _ hentry)
        -- There is one request for it, and that stands before the registration.
        obtain ⟨⟨_, answer⟩, hbefore, rfl⟩ := List.mem_map.mp hsent
        have hsame : answer = .ok reply := by
          refine hjournal.reply_unique ?_ hreply
          rw [replies_append]
          exact List.mem_append_left _ hbefore
        exact ⟨reply, hsame ▸ hbefore, hends, now', reason, _, hmark⟩

/-- Where the mark comes first, the registration revives the token. -/
theorem early_mark_leaves_in_use :
    let clock (n : Nat) : Instant := ⟨n, 0⟩
    let before := calls 0 clock 0 (told "Unregistered") ++
      calls 0 clock 4 [⟨.mark "a" "Unregistered", .ok true⟩]
    let after := calls 0 clock 6 [⟨.close .development, ()⟩]
    ∃ m', Run ⟨[Dispatcher.smallest.sendToUser ⟨"ada"⟩ Dispatcher.notification], phones⟩
        (before ++ .registered (clock 5) phone :: after) ⟨[.done (counted true)], m'⟩ ∧
      phone.token ∈ (replies (journalOf 0 before)).map Prod.fst ∧
      (∀ now r, .registered now r ∈ after → r.token ≠ phone.token) ∧
      ∃ record, m'.get? phone.token = some record ∧ record.isActive = true := by
  intro clock before after
  let marked : Memory := (phones.mark (clock 4) "a" "Unregistered").1
  let revived : Memory := (marked.register (clock 5) phone).1
  obtain ⟨waiting, htold, hrest⟩ := (leads_told "Unregistered" true).exists_of_append
  have hparts : waiting.Leads
      ([⟨.mark "a" "Unregistered", .ok true⟩] ++ [⟨.close .development, ()⟩]) _ := hrest
  obtain ⟨closing, hmark, hclose⟩ := hparts.exists_of_append
  have hbefore : Run ⟨[Dispatcher.smallest.sendToUser ⟨"ada"⟩ Dispatcher.notification], phones⟩
      before ⟨[closing], marked⟩ :=
    (run_calls rfl htold (passes_told clock 0 "Unregistered")).append
      (run_calls rfl hmark (.mark "a" "Unregistered" .nil))
  have hafter : Run ⟨[closing], revived⟩ after ⟨[.done (counted true)], revived⟩ :=
    run_calls rfl hclose (.other _ nofun nofun .nil)
  have hrun := hbefore.append (.cons (.registers (clock 5) phone) hafter)
  have hsent : phone.token ∈ (replies (journalOf 0 before)).map Prod.fst := by
    simp [before, calls, told, journalOf, replies, phone]
  have hlast : ∀ now r, .registered now r ∈ after → r.token ≠ phone.token := by
    simp [after, calls]
  obtain ⟨record, hget, -, -, -, hactive⟩ :=
    returned_token_in_use_iff Dispatcher.smallest ⟨"ada"⟩ Dispatcher.notification hrun hsent hlast
  refine ⟨_, hrun, hsent, hlast, record, hget, hactive.mpr ?_⟩
  rintro ⟨_, -, -, now, reason, answer, hin⟩
  simp [after, calls] at hin

/-- A mark that comes behind the registration ends the use of the token, and
no request was sent since: nobody told that it is out of use. -/
theorem late_mark_cuts_off :
    ¬ ∀ (d : Dispatcher) (user : UserId) (p : Payload) (m m' : Memory) (before after : List Moment)
        (now : Instant) (r : Registration) (report : Report),
      Run ⟨[d.sendToUser user p], m⟩ (before ++ .registered now r :: after)
        ⟨[.done report], m'⟩ →
      r.token ∈ (replies (journalOf 0 before)).map Prod.fst →
      (∀ reply, (r.token, .ok reply) ∈ replies (journalOf 0 after) → ¬ reply.EndsUse) →
      ∃ record, m'.get? r.token = some record ∧ record.isActive = true := by
  intro hall
  let clock (n : Nat) : Instant := ⟨n, 0⟩
  let registered : Memory := (phones.register (clock 4) phone).1
  obtain ⟨waiting, hbefore, hafter⟩ := (leads_told "Unregistered" true).exists_of_append
  have htold : Run ⟨[Dispatcher.smallest.sendToUser ⟨"ada"⟩ Dispatcher.notification], phones⟩
      (calls 0 clock 0 (told "Unregistered")) ⟨[waiting], phones⟩ :=
    run_calls rfl hbefore (passes_told clock 0 "Unregistered")
  have hmarked : Run ⟨[waiting], registered⟩ (calls 0 clock 5 (closing "Unregistered" true))
      ⟨[.done (counted true)], (registered.mark (clock 5) "a" "Unregistered").1⟩ :=
    run_calls rfl hafter (passes_closing clock 5 registered "Unregistered")
  have hrun := htold.append (.cons (.registers (clock 4) phone) hmarked)
  obtain ⟨record, hget, hactive⟩ := hall _ _ _ _ _ _ _ _ phone _ hrun
    (by simp [calls, told, journalOf, replies, phone]) (by simp [calls, closing, journalOf, replies])
  have hended : (registered.mark (clock 5) "a" "Unregistered").1.get? phone.token =
      some (Memory.invalidated (phones.register (clock 4) phone).2 (clock 5) "Unregistered") := rfl
  obtain rfl := Option.some.inj (hget.symm.trans hended)
  cases hactive

end Shared

end Runwatch.Push
