/-
Runwatch.Proofs.Push.Account — what a report counts.

A delivery need not be carried out in one go: between two of its calls the
world may change at will. What it leaves in a journal then is still what it
leaves when somebody answers its calls from a script (`Plan.Leads.replay`),
so that all that holds of its journal and its report whoever answers holds
then, too.

The journal tells of a listed token that a request for it was taken, or that
the store has answered a mark of it, or neither. The report counts the
first, lists those of the second that the mark found active, and counts the
third as failures.

  §1 Scripts  — plans that are advanced call by call (`Plan.Leads`).
  §2 Verdicts — what a journal tells of a token; no token has two of them.
  §3 Accounts — how the numbers of a report grow (`Tallied`), and what they
                are in the end (`Dispatcher.accounts_sendToUser`).
-/
import Runwatch.Proofs.Push.Effect

namespace Runwatch.Push

variable {σ α : Type}

/-! ## §1 Scripts -/

/-- The answer of nobody. -/
def Call.refusal : (c : Call) → c.Answer
  | .list _ => .error .poisoned
  | .mint => .error (.signing "")
  | .openSession _ => .error (.transport "")
  | .send _ _ => .error (.transport "")
  | .mark _ _ => .error .poisoned
  | .close _ => ()

/-- Answers what a script says, as long as it is about the calls made. -/
def scripted : Service (List Entry)
  | c, entry :: rest => if h : entry.call = c then (h ▸ entry.answer, rest) else (c.refusal, rest)
  | c, [] => (c.refusal, [])

namespace Plan

/-- What is left of a plan behind some calls with their answers. -/
inductive Leads : Plan α → List Entry → Plan α → Prop where
  | nil (plan : Plan α) : Leads plan [] plan
  | cons {c : Call} {next : c.Answer → Plan α} (answer : c.Answer) {rest : List Entry}
      {plan : Plan α} (h : Leads (next answer) rest plan) :
      Leads (.ask c next) (⟨c, answer⟩ :: rest) plan

@[simp] theorem scripted_cons (c : Call) (answer : c.Answer) (rest : List Entry) :
    scripted c (⟨c, answer⟩ :: rest) = (answer, rest) := by
  simp [scripted]

/-- A journal of a plan is a script for it. -/
theorem Leads.replay {plan : Plan α} {entries : List Entry} {a : α}
    (h : Leads plan entries (.done a)) :
    (plan.run scripted entries).1 = a ∧ plan.entries scripted entries = entries := by
  generalize hend : Plan.done a = last at h
  induction h with
  | nil _ =>
    subst hend
    exact ⟨rfl, rfl⟩
  | @cons c next answer rest _ _ ih =>
    obtain ⟨hrun, hentries⟩ := ih hend
    rw [Plan.run, Plan.entries, scripted_cons]
    exact ⟨hrun, congrArg (List.cons _) hentries⟩

theorem Leads.exists_of_append {plan plan' : Plan α} {xs ys : List Entry}
    (h : plan.Leads (xs ++ ys) plan') :
    ∃ between, plan.Leads xs between ∧ between.Leads ys plan' := by
  induction xs generalizing plan with
  | nil => exact ⟨plan, .nil _, h⟩
  | cons entry rest ih =>
    cases h with
    | cons answer hrest =>
      obtain ⟨between, hfirst, hsecond⟩ := ih hrest
      exact ⟨between, .cons answer hfirst, hsecond⟩

/-- A plan that is carried out in one go is advanced call by call. -/
theorem leads_entries (service : Service σ) (plan : Plan α) (s : σ) :
    Leads plan (plan.entries service s) (.done (plan.run service s).1) := by
  induction plan generalizing s with
  | done a => exact .nil _
  | ask c next ih => exact .cons _ (ih _ _)

end Plan

/-! ## §2 Verdicts -/

/-- A reply to a request that the service has taken. -/
abbrev Reply.IsSuccess (r : Reply) : Prop := 200 ≤ r.status ∧ r.status < 300

/-- The tokens of the listings. -/
def listed (entries : List Entry) : List String :=
  entries.flatMap fun
    | ⟨.list _, .ok tokens⟩ => tokens.map (·.token)
    | _ => []

/-- The tokens that a request was taken for, in the order of the requests. -/
def deliveries (entries : List Entry) : List String :=
  entries.filterMap fun
    | ⟨.send _ request, .ok reply⟩ => if reply.IsSuccess then some request.token else none
    | _ => none

/-- The tokens that a request was taken for, and those of which the store has
answered a mark. -/
def settled (entries : List Entry) : List String :=
  entries.filterMap fun
    | ⟨.send _ request, .ok reply⟩ => if reply.IsSuccess then some request.token else none
    | ⟨.mark token _, .ok _⟩ => some token
    | _ => none

/-- The tokens that were listed, and nothing came of it. -/
def failures (entries : List Entry) : List String :=
  (listed entries).filter fun token => !(settled entries).contains token

@[simp] theorem deliveries_append (xs ys : List Entry) :
    deliveries (xs ++ ys) = deliveries xs ++ deliveries ys := List.filterMap_append

@[simp] theorem settled_append (xs ys : List Entry) :
    settled (xs ++ ys) = settled xs ++ settled ys := List.filterMap_append

@[simp] theorem listed_append (xs ys : List Entry) : listed (xs ++ ys) = listed xs ++ listed ys :=
  List.flatMap_append

theorem filterMap_cons_ite {α β : Type} {f : α → Option β} {x : α} {y : β} {c : Prop} [Decidable c]
    (h : f x = if c then some y else none) (rest : List α) :
    (x :: rest).filterMap f = if c then y :: rest.filterMap f else rest.filterMap f := by
  by_cases hc : c
  · rw [if_pos hc]
    exact List.filterMap_cons_some (h.trans (if_pos hc))
  · rw [if_neg hc]
    exact List.filterMap_cons_none (h.trans (if_neg hc))

theorem settled_send (e : Environment) (request : Request) (reply : Reply) (rest : List Entry) :
    settled (⟨.send e request, .ok reply⟩ :: rest) =
      if reply.IsSuccess then request.token :: settled rest else settled rest := by
  unfold settled
  exact filterMap_cons_ite (by rfl) rest

theorem deliveries_send (e : Environment) (request : Request) (reply : Reply)
    (rest : List Entry) :
    deliveries (⟨.send e request, .ok reply⟩ :: rest) =
      if reply.IsSuccess then request.token :: deliveries rest else deliveries rest := by
  unfold deliveries
  exact filterMap_cons_ite (by rfl) rest

variable {e : Environment} {provider body : String} {tokens : List ActiveToken}
  {entries : List Entry}

theorem mem_listed {token : String} :
    token ∈ listed entries ↔ ∃ user tokens, ⟨.list user, .ok tokens⟩ ∈ entries ∧
      ∃ a ∈ tokens, a.token = token := by
  unfold listed
  rw [List.mem_flatMap]
  constructor
  · rintro ⟨⟨call, answer⟩, hentry, hin⟩
    cases call with
    | list user =>
      cases answer with
      | error cause => cases hin
      | ok tokens => exact ⟨user, tokens, hentry, List.mem_map.mp hin⟩
    | mint | openSession | send | mark | close => cases hin
  · rintro ⟨user, tokens, hentry, hin⟩
    exact ⟨_, hentry, List.mem_map.mpr hin⟩

theorem mem_deliveries {token : String} :
    token ∈ deliveries entries ↔
      ∃ reply, (token, .ok reply) ∈ replies entries ∧ reply.IsSuccess := by
  unfold deliveries
  rw [List.mem_filterMap]
  constructor
  · rintro ⟨⟨call, answer⟩, hentry, hsome⟩
    cases call with
    | send e request =>
      cases answer with
      | error cause => cases hsome
      | ok reply =>
        simp only [Option.ite_none_right_eq_some, Option.some.injEq] at hsome
        obtain ⟨hsuccess, rfl⟩ := hsome
        exact ⟨reply, mem_replies.mpr ⟨e, request, hentry, rfl⟩, hsuccess⟩
    | list | mint | openSession | mark | close => cases hsome
  · rintro ⟨reply, hreply, hsuccess⟩
    obtain ⟨e, request, hentry, rfl⟩ := mem_replies.mp hreply
    exact ⟨_, hentry, by simp [hsuccess]⟩

theorem mem_marks {token reason : String} :
    (token, reason) ∈ marks entries ↔ ∃ answer, ⟨.mark token reason, answer⟩ ∈ entries := by
  unfold marks
  rw [List.mem_filterMap]
  constructor
  · rintro ⟨⟨call, answer⟩, hentry, hsome⟩
    cases call with
    | mark marked reason' =>
      obtain ⟨rfl, rfl⟩ := Prod.mk.inj (Option.some.inj hsome)
      exact ⟨answer, hentry⟩
    | list | mint | openSession | send | close => cases hsome
  · rintro ⟨answer, hentry⟩
    exact ⟨_, hentry, rfl⟩

theorem mem_confirmed {token : String} :
    token ∈ confirmed entries ↔ ∃ reason, ⟨.mark token reason, .ok true⟩ ∈ entries := by
  unfold confirmed
  rw [List.mem_filterMap]
  constructor
  · rintro ⟨⟨call, answer⟩, hentry, hsome⟩
    cases call with
    | mark marked reason =>
      rcases answer with cause | _ | _
      · cases hsome
      · cases hsome
      · obtain rfl := Option.some.inj hsome
        exact ⟨reason, hentry⟩
    | list | mint | openSession | send | close => cases hsome
  · rintro ⟨reason, hentry⟩
    exact ⟨_, hentry, rfl⟩

theorem confirmed_sublist (entries : List Entry) :
    (confirmed entries).Sublist ((marks entries).map Prod.fst) := by
  induction entries with
  | nil => exact .slnil
  | cons entry rest ih =>
    obtain ⟨call, answer⟩ := entry
    cases call with
    | mark token reason =>
      rcases answer with cause | _ | _
      · exact ih.cons _
      · exact ih.cons _
      · exact ih.cons_cons _
    | list | mint | openSession | send | close => exact ih

/-- A mark that the store has answered settles its token. -/
theorem mem_settled_of_mark {token reason : String} {answer : Bool}
    (h : ⟨.mark token reason, .ok answer⟩ ∈ entries) : token ∈ settled entries :=
  List.mem_filterMap.mpr ⟨_, h, rfl⟩

/-- Of one token there is one verdict at most: it is marked only behind a
reply that is no success. -/
theorem AboutToken.settled_sublist {t : ActiveToken} (h : AboutToken e provider body t entries) :
    (settled entries).Sublist [t.token] := by
  cases h with
  | lost cause => exact List.nil_sublist _
  | kept reply _ =>
    rw [settled_send]
    split
    · exact List.Sublist.refl _
    · exact List.nil_sublist _
  | ended reply reason hended answer =>
    obtain ⟨⟨hnot, -⟩, -⟩ := Reply.outcome_eq_invalidToken_iff.mp hended
    rw [settled_send, if_neg hnot]
    cases answer with
    | ok _ => exact List.Sublist.refl _
    | error _ => exact List.nil_sublist _

theorem InSession.settled_sublist (h : InSession e provider body tokens entries) :
    (settled entries).Sublist (tokens.map (·.token)) := by
  induction h with
  | nil => exact List.nil_sublist _
  | cons hfirst _ ih =>
    rw [settled_append]
    exact hfirst.settled_sublist.append ih

theorem AboutTier.settled_sublist (h : AboutTier body e tokens entries) :
    (settled entries).Sublist (tokens.map (·.token)) := by
  cases h with
  | unused | unminted | unopened => exact List.nil_sublist _
  | served _ provider hsession => simpa [settled] using hsession.settled_sublist

theorem AboutTier.listed_eq (h : AboutTier body e tokens entries) : listed entries = [] := by
  cases h with
  | unused | unminted | unopened => rfl
  | @served _ provider session hsession =>
    have hnone : listed session = [] := by
      refine List.flatMap_eq_nil_iff.mpr fun entry hentry => ?_
      obtain ⟨call, answer⟩ := entry
      rcases hsession.call_eq _ hentry with ⟨_, hcall⟩ | ⟨_, _, hcall⟩ <;> cases hcall <;> rfl
    simpa [listed] using hnone

/-! ## §3 Accounts -/

/-- What the numbers of a report have to do with the journal of what came
between: `n` tokens were served. -/
structure Tallied (n : Nat) (before : Report) (entries : List Entry) (after : Report) : Prop where
  delivered : after.delivered = before.delivered + (deliveries entries).length
  failed : after.failed + (settled entries).length = before.failed + n

theorem Tallied.trans {n k : Nat} {before between after : Report} {xs ys : List Entry}
    (h : Tallied n before xs between) (h' : Tallied k between ys after) :
    Tallied (n + k) before (xs ++ ys) after where
  delivered := by
    rw [h'.delivered, h.delivered, deliveries_append, List.length_append, Nat.add_assoc]
  failed := by
    have hfirst := h.failed
    have hsecond := h'.failed
    rw [settled_append, List.length_append]
    omega

variable (service : Service σ)

theorem tallied_deliverOne (e : Environment) (provider body : String) (report : Report)
    (t : ActiveToken) (s : σ) :
    Tallied 1 report ((deliverOne e provider body report t).entries service s)
      ((deliverOne e provider body report t).run service s).1 := by
  rw [deliverOne_eq, Plan.run, Plan.entries]
  rcases service (.send e ⟨t.token, provider, t.bundle, body⟩) s with ⟨cause | reply, s'⟩
  · exact ⟨rfl, rfl⟩
  · simp only
    by_cases hsuccess : reply.IsSuccess
    · rw [Reply.outcome_eq, if_pos hsuccess]
      constructor
      · rw [deliveries_send, if_pos hsuccess]
        rfl
      · rw [settled_send, if_pos hsuccess]
        rfl
    · by_cases hends : reply.EndsUse
      · rw [Reply.outcome_eq, if_neg hsuccess, if_pos hends, settle_invalidToken, Plan.run,
          Plan.entries]
        rcases service (.mark t.token (reply.reason.getD "status 410")) s' with
            ⟨cause | _ | _, s''⟩ <;>
          exact ⟨by rw [deliveries_send, if_neg hsuccess]; rfl,
            by rw [settled_send, if_neg hsuccess]; rfl⟩
      · rw [Reply.outcome_eq, if_neg hsuccess, if_neg hends]
        constructor
        · rw [deliveries_send, if_neg hsuccess]
          rfl
        · rw [settled_send, if_neg hsuccess]
          rfl

theorem tallied_deliverAll (e : Environment) (provider body : String) (tokens : List ActiveToken)
    (report : Report) (s : σ) :
    Tallied tokens.length report ((deliverAll e provider body tokens report).entries service s)
      ((deliverAll e provider body tokens report).run service s).1 := by
  induction tokens generalizing report s with
  | nil => exact ⟨rfl, rfl⟩
  | cons t rest ih =>
    simp only [deliverAll, Plan.bind_eq, Plan.run_bind, Plan.entries_bind, List.length_cons]
    rw [Nat.add_comm]
    exact (tallied_deliverOne service e provider body report t s).trans (ih _ _)

theorem tallied_deliverGroup (body : String) (e : Environment) (tokens : List ActiveToken)
    (report : Report) (s : σ) :
    Tallied tokens.length report ((deliverGroup body e tokens report).entries service s)
      ((deliverGroup body e tokens report).run service s).1 := by
  rw [deliverGroup_eq, Plan.run, Plan.entries]
  rcases service .mint s with ⟨cause | provider, s'⟩
  · exact ⟨rfl, rfl⟩
  · simp only [Plan.run, Plan.entries]
    rcases service (.openSession e) s' with ⟨cause | _, s''⟩
    · exact ⟨rfl, rfl⟩
    · simp only [Plan.run_bind, Plan.entries_bind, Plan.run, Plan.entries]
      have hall := tallied_deliverAll service e provider.text body tokens
        { report with sessionsOpened := report.sessionsOpened + 1 } s''
      -- The other calls settle nothing.
      refine ⟨hall.delivered.trans ?_, Eq.trans ?_ hall.failed⟩ <;> simp [deliveries, settled]

theorem tallied_deliverGroups (body : String) (groups : List (Environment × List ActiveToken))
    (report : Report) (s : σ) :
    Tallied (groups.flatMap (·.2)).length report
      ((deliverGroups body groups report).entries service s)
      ((deliverGroups body groups report).run service s).1 := by
  induction groups generalizing report s with
  | nil => exact ⟨rfl, rfl⟩
  | cons group rest ih =>
    simp only [deliverGroups, Plan.bind_eq, Plan.run_bind, Plan.entries_bind, List.flatMap_cons,
      List.length_append]
    exact (tallied_deliverGroup service body group.1 group.2 report s).trans (ih _ _)

/-- A tier without tokens counts for nothing. -/
theorem flatMap_filter_nonempty (groups : List (Environment × List ActiveToken)) :
    (groups.filter (!·.2.isEmpty)).flatMap (·.2) = groups.flatMap (·.2) := by
  induction groups with
  | nil => rfl
  | cons group rest ih =>
    obtain ⟨e, tokens⟩ := group
    cases tokens with
    | nil => simpa using ih
    | cons t later => simpa using ih

theorem length_groupByEnvironment (tokens : List ActiveToken) :
    ((groupByEnvironment tokens).flatMap (·.2)).length = tokens.length := by
  rw [groupByEnvironment, flatMap_filter_nonempty]
  simpa [Environment.all] using (tiers_perm tokens).length_eq

/-- The report counts the verdicts of the journal. -/
structure Accounts (entries : List Entry) (report : Report) : Prop where
  delivered : report.delivered = (deliveries entries).length
  invalidated : report.invalidated = confirmed entries
  failed : report.failed = (failures entries).length

theorem length_filter_not_contains {xs ys : List String} (hxs : xs.Nodup) (hys : ys.Nodup)
    (hsub : ys ⊆ xs) : (xs.filter fun x => !ys.contains x).length + ys.length = xs.length := by
  have hperm : (xs.filter fun x => ys.contains x).Perm ys := by
    rw [List.perm_ext_iff_of_nodup (hxs.filter _) hys]
    intro x
    simpa using fun hx => hsub hx
  have hparts := List.length_eq_length_filter_add (l := xs) fun x => ys.contains x
  rw [hperm.length_eq] at hparts
  omega

namespace Dispatcher

theorem tallied_sendToUser {d : Dispatcher} (hd : d.isEnabled = true) (user : UserId)
    (p : Payload) (s : σ) {tokens : List ActiveToken}
    (hlist : (service (.list user) s).1 = .ok tokens) :
    Tallied tokens.length Report.empty ((d.sendToUser user p).entries service s)
      ((d.sendToUser user p).run service s).1 := by
  rw [sendToUser_eq hd, Plan.run, Plan.entries, hlist]
  simp only [hlist]
  cases tokens with
  | nil => exact ⟨rfl, rfl⟩
  | cons t rest =>
    have hgroups := tallied_deliverGroups service p.wireText (groupByEnvironment (t :: rest))
      Report.empty (service (.list user) s).2
    rw [length_groupByEnvironment] at hgroups
    exact ⟨hgroups.delivered, hgroups.failed⟩

/-- **A report counts what its journal tells**, whoever answers the calls,
provided that no listing has a token twice: the tokens that a request was
taken for, those that the store has marked, and as failures all others. -/
theorem accounts_sendToUser (d : Dispatcher) (user : UserId) (p : Payload) (s : σ)
    (honce : ∀ tokens, (service (.list user) s).1 = .ok tokens → (tokens.map (·.token)).Nodup) :
    Accounts ((d.sendToUser user p).entries service s)
      ((d.sendToUser user p).run service s).1 := by
  have hinvalidated := d.invalidated_sendToUser service s user p
  cases hd : d.isEnabled with
  | false =>
    rw [sendToUser_of_not_isEnabled hd]
    exact ⟨rfl, rfl, rfl⟩
  | true =>
    cases hlist : (service (.list user) s).1 with
    | error cause =>
      rw [sendToUser_eq hd, Plan.run, Plan.entries, hlist]
      simp only [hlist]
      exact ⟨rfl, rfl, rfl⟩
    | ok tokens =>
      have htallied := tallied_sendToUser service hd user p s hlist
      refine ⟨htallied.delivered.trans (Nat.zero_add _), hinvalidated, ?_⟩
      obtain ⟨development, production, hentries, hdevelopment, hproduction⟩ :=
        exists_aboutTiers hd service user p s hlist
      -- The verdicts are about listed tokens, no two about the same.
      have hlisted : listed ((d.sendToUser user p).entries service s) =
          tokens.map (·.token) := by
        rw [hentries, ← List.singleton_append, listed_append, listed_append,
          hdevelopment.listed_eq, hproduction.listed_eq, List.append_nil, List.append_nil]
        exact List.append_nil _
      have hsettled : (settled ((d.sendToUser user p).entries service s)).Sublist
          ((tokens.filter (·.environment == .development)).map (·.token) ++
            (tokens.filter (·.environment == .production)).map (·.token)) := by
        rw [hentries, ← List.singleton_append, settled_append, settled_append]
        exact hdevelopment.settled_sublist.append hproduction.settled_sublist
      have hamong : settled ((d.sendToUser user p).entries service s) ⊆ tokens.map (·.token) := by
        refine List.Subset.trans hsettled.subset ?_
        rw [← List.map_append]
        exact List.map_subset _
          (List.append_subset.mpr ⟨List.filter_sublist.subset, List.filter_sublist.subset⟩)
      have hcount := length_filter_not_contains (honce tokens hlist)
        ((tiers_nodup tokens (honce tokens hlist)).sublist hsettled) hamong
      have hfailed := htallied.failed
      rw [failures, hlisted]
      simp only [Report.empty, List.length_map] at hcount hfailed
      omega

end Dispatcher

end Runwatch.Push
