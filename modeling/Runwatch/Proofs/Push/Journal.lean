/-
Runwatch.Proofs.Push.Journal — the calls that a delivery makes.

What a dispatcher asks of the world is a matter of the tokens it is given:
which sessions it opens, which requests it sends and in what order. The
answers decide how far it gets with a tier, and whether a mark comes behind
a request, and nothing else.

  §1 Plans   — the entries that a plan leaves in a journal (`Plan.entries`),
               and that keeping one changes nothing (`run_recorded`).
  §2 Tiers   — what a journal may hold about one token (`AboutToken`), about
               the tokens of a session (`InSession`) and about a tier
               (`AboutTier`), and that a delivery leaves just that.
  §3 Reading — the requests in a journal, and what comes behind a close.

The main statement is `Dispatcher.journal_follows_tokens`.
-/
import Runwatch.Push.Service

namespace Runwatch.Push

open Store (StoreError)

variable {σ α β : Type}

/-! ## §1 Plans -/

namespace Plan

@[simp] theorem pure_eq (a : α) : (pure a : Plan α) = .done a := rfl

@[simp] theorem bind_eq (plan : Plan α) (f : α → Plan β) : plan >>= f = plan.bind f := rfl

/-- The calls of a plan with their answers, in order. -/
def entries (service : Service σ) : Plan α → σ → List Entry
  | .done _, _ => []
  | .ask c next, s =>
    ⟨c, (service c s).1⟩ :: (next (service c s).1).entries service (service c s).2

/-- A journal changes nothing, and holds the entries in the end. -/
theorem run_recorded (service : Service σ) (plan : Plan α) (s : σ) (before : List Entry) :
    plan.run service.recorded (s, before) =
      ((plan.run service s).1, (plan.run service s).2, before ++ plan.entries service s) := by
  induction plan generalizing s before with
  | done a => simp [run, entries]
  | ask c next ih => simp [run, entries, Service.recorded, ih]

theorem run_bind (service : Service σ) (plan : Plan α) (f : α → Plan β) (s : σ) :
    (plan.bind f).run service s =
      (f (plan.run service s).1).run service (plan.run service s).2 := by
  induction plan generalizing s with
  | done a => rfl
  | ask c next ih => exact ih _ _

theorem entries_bind (service : Service σ) (plan : Plan α) (f : α → Plan β) (s : σ) :
    (plan.bind f).entries service s =
      plan.entries service s
        ++ (f (plan.run service s).1).entries service (plan.run service s).2 := by
  induction plan generalizing s with
  | done a => rfl
  | ask c next ih => exact congrArg (List.cons _) (ih _ _)

@[simp] theorem entries_done (service : Service σ) (a : α) (s : σ) :
    (Plan.done a).entries service s = [] := rfl

end Plan

/-! ## §2 Tiers -/

/-- About one token: its request, with the text of the body, the provider
token and the token's own application; behind it a mark if the reply says
that the token must not be used again. -/
inductive AboutToken (e : Environment) (provider body : String) (t : ActiveToken) :
    List Entry → Prop where
  | lost (cause : PushError) :
      AboutToken e provider body t [⟨.send e ⟨t.token, provider, t.bundle, body⟩, .error cause⟩]
  | kept (reply : Reply) (h : ∀ reason, reply.outcome ≠ .invalidToken reason) :
      AboutToken e provider body t [⟨.send e ⟨t.token, provider, t.bundle, body⟩, .ok reply⟩]
  | ended (reply : Reply) (reason : String) (h : reply.outcome = .invalidToken reason)
      (answer : Except StoreError Bool) :
      AboutToken e provider body t
        [⟨.send e ⟨t.token, provider, t.bundle, body⟩, .ok reply⟩, ⟨.mark t.token reason, answer⟩]

/-- About the tokens of a session: one token after the other, in order. -/
inductive InSession (e : Environment) (provider body : String) :
    List ActiveToken → List Entry → Prop where
  | nil : InSession e provider body [] []
  | cons {t rest first later} (h : AboutToken e provider body t first)
      (hrest : InSession e provider body rest later) :
      InSession e provider body (t :: rest) (first ++ later)

/-- About a tier with some tokens: nothing if there are none; else one
provider token is minted and one session is opened. Behind a failure of
either comes nothing; else all tokens are served, and the session is closed. -/
inductive AboutTier (body : String) (e : Environment) (tokens : List ActiveToken) :
    List Entry → Prop where
  | unused (h : tokens = []) : AboutTier body e tokens []
  | unminted (h : tokens ≠ []) (cause : PushError) :
      AboutTier body e tokens [⟨.mint, .error cause⟩]
  | unopened (h : tokens ≠ []) (provider : ProviderToken) (cause : PushError) :
      AboutTier body e tokens [⟨.mint, .ok provider⟩, ⟨.openSession e, .error cause⟩]
  | served (h : tokens ≠ []) (provider : ProviderToken) {session : List Entry}
      (hsession : InSession e provider.text body tokens session) :
      AboutTier body e tokens
        (⟨.mint, .ok provider⟩ :: ⟨.openSession e, .ok ()⟩ :: (session ++ [⟨.close e, ()⟩]))

variable (service : Service σ)

theorem settle_invalidToken (t : ActiveToken) (report : Report) (reason : String) :
    settle t report (.invalidToken reason) = .ask (.mark t.token reason) fun
      | .ok true => .done { report with invalidated := report.invalidated ++ [t.token] }
      | .ok false => .done report
      | .error _ => .done (report.fail 1) := rfl

theorem deliverOne_eq (e : Environment) (provider body : String) (report : Report)
    (t : ActiveToken) :
    deliverOne e provider body report t =
      .ask (.send e ⟨t.token, provider, t.bundle, body⟩) fun
        | .ok reply => settle t { report with attempted := report.attempted + 1 } reply.outcome
        | .error _ => .done ({ report with attempted := report.attempted + 1 }.fail 1) := rfl

theorem deliverGroup_eq (body : String) (e : Environment) (tokens : List ActiveToken)
    (report : Report) :
    deliverGroup body e tokens report =
      .ask .mint fun
        | .error _ => .done (report.fail tokens.length)
        | .ok provider => .ask (.openSession e) fun
          | .error _ => .done (report.fail tokens.length)
          | .ok () =>
            (deliverAll e provider.text body tokens
              { report with sessionsOpened := report.sessionsOpened + 1 }).bind fun report =>
                .ask (.close e) fun _ => .done report := rfl

theorem aboutToken_deliverOne (e : Environment) (provider body : String) (report : Report)
    (t : ActiveToken) (s : σ) :
    AboutToken e provider body t ((deliverOne e provider body report t).entries service s) := by
  rw [deliverOne_eq, Plan.entries]
  rcases service (.send e ⟨t.token, provider, t.bundle, body⟩) s with ⟨cause | reply, s'⟩
  · exact .lost cause
  · simp only
    cases houtcome : reply.outcome with
    | delivered => exact .kept reply (by simp [houtcome])
    | rejected status reason => exact .kept reply (by simp [houtcome])
    | invalidToken reason =>
      rw [settle_invalidToken, Plan.entries]
      rcases service (.mark t.token reason) s' with ⟨_ | _ | _, s''⟩ <;>
        exact .ended reply reason houtcome _

theorem inSession_deliverAll (e : Environment) (provider body : String) (tokens : List ActiveToken)
    (report : Report) (s : σ) :
    InSession e provider body tokens
      ((deliverAll e provider body tokens report).entries service s) := by
  induction tokens generalizing report s with
  | nil => exact .nil
  | cons t rest ih =>
    simp only [deliverAll, Plan.bind_eq, Plan.entries_bind]
    exact .cons (aboutToken_deliverOne service e provider body report t s) (ih _ _)

theorem aboutTier_deliverGroup (body : String) (e : Environment) {tokens : List ActiveToken}
    (h : tokens ≠ []) (report : Report) (s : σ) :
    AboutTier body e tokens ((deliverGroup body e tokens report).entries service s) := by
  rw [deliverGroup_eq, Plan.entries]
  rcases service .mint s with ⟨cause | provider, s'⟩
  · exact .unminted h cause
  · simp only [Plan.entries]
    rcases service (.openSession e) s' with ⟨cause | _, s''⟩
    · exact .unopened h provider cause
    · simp only [Plan.entries_bind, Plan.entries]
      exact .served h provider (inSession_deliverAll service e provider.text body tokens _ s'')

/-- What is left of some tiers is served tier by tier; those without tokens
are left out. -/
theorem exists_aboutTier (body : String) (e : Environment) (group : List ActiveToken)
    (rest : List (Environment × List ActiveToken)) (report : Report) (s : σ) :
    ∃ part report' s', AboutTier body e group part ∧
      (deliverGroups body (((e, group) :: rest).filter (!·.2.isEmpty)) report).entries service s =
        part ++ (deliverGroups body (rest.filter (!·.2.isEmpty)) report').entries service s' := by
  cases hgroup : group with
  | nil => exact ⟨[], report, s, .unused rfl, by simp⟩
  | cons t later =>
    rw [List.filter_cons_of_pos (by simp), deliverGroups, Plan.bind_eq, Plan.entries_bind]
    exact ⟨_, _, _, aboutTier_deliverGroup service body e (by simp) report s, rfl⟩

/-! ## §3 Reading -/

/-- The requests in the sessions of a tier, in order. -/
def requestsIn (e : Environment) (entries : List Entry) : List Request :=
  entries.filterMap fun entry => match entry.call with
    | .send e' request => if e' = e then some request else none
    | _ => none

@[simp] theorem requestsIn_append (e : Environment) (xs ys : List Entry) :
    requestsIn e (xs ++ ys) = requestsIn e xs ++ requestsIn e ys := List.filterMap_append

/-- The tier whose session a call is about. -/
def Call.tier? : Call → Option Environment
  | .openSession e | .send e _ | .close e => some e
  | .list _ | .mint | .mark _ _ => none

variable {e : Environment} {provider body : String} {tokens : List ActiveToken}
  {entries : List Entry}

theorem AboutToken.call_eq {t : ActiveToken} (h : AboutToken e provider body t entries) :
    ∀ entry ∈ entries, entry.call = .send e ⟨t.token, provider, t.bundle, body⟩ ∨
      ∃ reason, entry.call = .mark t.token reason := by
  cases h <;> simp

theorem InSession.call_eq (h : InSession e provider body tokens entries) :
    ∀ entry ∈ entries, (∃ request, entry.call = .send e request) ∨
      ∃ token reason, entry.call = .mark token reason := by
  induction h with
  | nil => simp
  | cons hfirst _ ih =>
    intro entry hentry
    rcases List.mem_append.mp hentry with hin | hin
    · rcases hfirst.call_eq entry hin with hsend | ⟨reason, hmark⟩
      · exact .inl ⟨_, hsend⟩
      · exact .inr ⟨_, reason, hmark⟩
    · exact ih entry hin

/-- The calls for a tier are about its own sessions. -/
theorem AboutTier.tier (h : AboutTier body e tokens entries) {entry : Entry}
    (hentry : entry ∈ entries) : entry.call.tier? = none ∨ entry.call.tier? = some e := by
  cases h with
  | unused => cases hentry
  | unminted => simp_all [Call.tier?]
  | unopened => rcases List.mem_cons.mp hentry with rfl | hentry <;> simp_all [Call.tier?]
  | served _ provider hsession =>
    simp only [List.mem_cons, List.mem_append, List.not_mem_nil, or_false] at hentry
    rcases hentry with rfl | rfl | hin | rfl
    · exact .inl rfl
    · exact .inr rfl
    · rcases hsession.call_eq entry hin with ⟨_, hcall⟩ | ⟨_, _, hcall⟩ <;> simp [hcall, Call.tier?]
    · exact .inr rfl

theorem AboutTier.not_open_of_ne (h : AboutTier body e tokens entries) {e' : Environment}
    (hne : e' ≠ e) (answer : Except PushError Unit) : ⟨.openSession e', answer⟩ ∉ entries := by
  intro hin
  rcases h.tier hin with hnone | hsome
  · cases hnone
  · exact hne (Option.some.inj hsome)

/-- Nothing comes behind the close. -/
theorem AboutTier.close_last (h : AboutTier body e tokens entries) :
    entries.Pairwise fun a _ => ∀ e', a.call ≠ .close e' := by
  cases h with
  | unused => exact .nil
  | unminted => exact List.pairwise_singleton _ _
  | unopened => simp
  | @served _ provider session hsession =>
    have hopen : ∀ a ∈ session, ∀ e', a.call ≠ .close e' := by
      intro a ha e'
      rcases hsession.call_eq a ha with ⟨_, hcall⟩ | ⟨_, _, hcall⟩ <;> simp [hcall]
    have hmany : session.Pairwise fun a _ => ∀ e', a.call ≠ .close e' :=
      List.pairwise_iff_forall_sublist.mpr fun hab => hopen _ (hab.subset List.mem_cons_self)
    refine List.pairwise_cons.mpr ⟨fun _ _ e' => by simp, ?_⟩
    refine List.pairwise_cons.mpr ⟨fun _ _ e' => by simp, ?_⟩
    exact List.pairwise_append.mpr ⟨hmany, List.pairwise_singleton _ _, fun a ha _ _ => hopen a ha⟩

theorem AboutToken.requestsIn {t : ActiveToken} (h : AboutToken e provider body t entries) :
    requestsIn e entries = [⟨t.token, provider, t.bundle, body⟩] := by
  cases h <;> simp [Push.requestsIn]

/-- The requests of a session are those for its tokens, in their order,
whatever is answered. -/
theorem InSession.requestsIn (h : InSession e provider body tokens entries) :
    requestsIn e entries = tokens.map fun t => ⟨t.token, provider, t.bundle, body⟩ := by
  induction h with
  | nil => rfl
  | cons hfirst _ ih => simp [hfirst.requestsIn, ih]

theorem AboutTier.requestsIn (h : AboutTier body e tokens entries) :
    (∃ provider : ProviderToken, ⟨.mint, .ok provider⟩ ∈ entries ∧
      ⟨.openSession e, .ok ()⟩ ∈ entries ∧
      requestsIn e entries = tokens.map fun t => ⟨t.token, provider.text, t.bundle, body⟩) ∨
    ((⟨.openSession e, .ok ()⟩ : Entry) ∉ entries ∧ requestsIn e entries = []) := by
  cases h with
  | unused => exact .inr ⟨List.not_mem_nil, rfl⟩
  | unminted => exact .inr ⟨by simp, rfl⟩
  | unopened => exact .inr ⟨by simp, rfl⟩
  | served _ provider hsession =>
    refine .inl ⟨provider, by simp, by simp, ?_⟩
    rw [← hsession.requestsIn]
    simp [Push.requestsIn]

/-- No request of another tier is among them. -/
theorem AboutTier.requestsIn_of_ne (h : AboutTier body e tokens entries) {e' : Environment}
    (hne : e' ≠ e) : Push.requestsIn e' entries = [] := by
  refine List.filterMap_eq_nil_iff.mpr fun entry hentry => ?_
  have htier := h.tier hentry
  split
  · next e'' request hcall =>
    rw [hcall] at htier
    simp only [Call.tier?, reduceCtorEq, Option.some.injEq, false_or] at htier
    exact if_neg (htier ▸ Ne.symm hne)
  · rfl

namespace Dispatcher

theorem sendToUser_eq {d : Dispatcher} (hd : d.isEnabled = true) (user : UserId) (p : Payload) :
    d.sendToUser user p = .ask (.list user) fun
      | .error _ => .done (Report.ofSkip .storeUnavailable)
      | .ok [] => .done (Report.ofSkip .noActiveTokens)
      | .ok (t :: rest) =>
        deliverGroups p.wireText (groupByEnvironment (t :: rest)) Report.empty := by
  rw [sendToUser, if_neg (by simp [hd])]
  refine congrArg (Plan.ask (.list user)) (funext fun answer => ?_)
  rcases answer with _ | _ | _ <;> rfl

/-- The list is asked for, then each tier is served that has a token in it. -/
theorem exists_aboutTiers {d : Dispatcher} (hd : d.isEnabled = true) (service : Service σ)
    (user : UserId) (p : Payload) (s : σ) {tokens : List ActiveToken}
    (hlist : (service (.list user) s).1 = .ok tokens) :
    ∃ development production,
      (d.sendToUser user p).entries service s =
        ⟨.list user, .ok tokens⟩ :: (development ++ production) ∧
      AboutTier p.wireText .development (tokens.filter (·.environment == .development))
        development ∧
      AboutTier p.wireText .production (tokens.filter (·.environment == .production))
        production := by
  rw [sendToUser_eq hd, Plan.entries, hlist]
  cases tokens with
  | nil => exact ⟨[], [], rfl, .unused rfl, .unused rfl⟩
  | cons t rest =>
    simp only [groupByEnvironment, Environment.all, List.map_cons, List.map_nil]
    obtain ⟨development, _, _, hdevelopment, hfirst⟩ :=
      exists_aboutTier service p.wireText .development _ _ _ _
    obtain ⟨production, _, _, hproduction, hsecond⟩ :=
      exists_aboutTier service p.wireText .production _ [] _ _
    rw [hfirst, hsecond]
    exact ⟨development, production, by simp [deliverGroups], hdevelopment, hproduction⟩

/-- **What a delivery does is fixed by the tokens in the list.** The tier of
development is served, then that of production, each in one session. In a
session that opens, one request is sent for each token of its tier, in their
order, whatever is answered to the others; behind its close none is sent. -/
theorem journal_follows_tokens (d : Dispatcher) (hd : d.isEnabled = true) (service : Service σ)
    (user : UserId) (p : Payload) (s : σ) {tokens : List ActiveToken}
    (hlist : (service (.list user) s).1 = .ok tokens) :
    ∃ development production journal : List Entry,
      (d.sendToUser user p).run service.recorded (s, []) =
        (((d.sendToUser user p).run service s).1, ((d.sendToUser user p).run service s).2,
          journal) ∧
      journal = ⟨.list user, .ok tokens⟩ :: (development ++ production) ∧
      AboutTier p.wireText .development (tokens.filter (·.environment == .development))
        development ∧
      AboutTier p.wireText .production (tokens.filter (·.environment == .production))
        production ∧
      (∀ e,
        (∃ provider : ProviderToken, ⟨.mint, .ok provider⟩ ∈ journal ∧
          ⟨.openSession e, .ok ()⟩ ∈ journal ∧
          requestsIn e journal = (tokens.filter (·.environment == e)).map fun t =>
            ⟨t.token, provider.text, t.bundle, p.wireText⟩) ∨
        ((⟨.openSession e, .ok ()⟩ : Entry) ∉ journal ∧ requestsIn e journal = [])) ∧
      journal.Pairwise fun a b => ∀ e request, a.call = .close e → b.call ≠ .send e request := by
  obtain ⟨development, production, hentries, hdevelopment, hproduction⟩ :=
    exists_aboutTiers hd service user p s hlist
  refine ⟨development, production, _, Plan.run_recorded _ _ _ _, hentries, hdevelopment,
    hproduction, ?requests, ?closes⟩
  case requests =>
    rw [List.nil_append, hentries]
    have hlisted : ∀ e, requestsIn e [⟨.list user, .ok tokens⟩] = [] := fun _ => rfl
    intro e
    rw [← List.singleton_append, requestsIn_append, requestsIn_append, hlisted e, List.nil_append]
    cases e with
    | development =>
      rw [hproduction.requestsIn_of_ne (by decide), List.append_nil]
      rcases hdevelopment.requestsIn with ⟨provider, hmint, hopen, hsent⟩ | ⟨hopen, hsent⟩
      · exact .inl ⟨provider, by simp [hmint], by simp [hopen], hsent⟩
      · exact .inr ⟨by simp [hopen, hproduction.not_open_of_ne], hsent⟩
    | production =>
      rw [hdevelopment.requestsIn_of_ne (by decide), List.nil_append]
      rcases hproduction.requestsIn with ⟨provider, hmint, hopen, hsent⟩ | ⟨hopen, hsent⟩
      · exact .inl ⟨provider, by simp [hmint], by simp [hopen], hsent⟩
      · exact .inr ⟨by simp [hopen, hdevelopment.not_open_of_ne], hsent⟩
  case closes =>
    rw [List.nil_append, hentries]
    refine List.pairwise_cons.mpr ⟨by simp, List.pairwise_append.mpr ⟨?_, ?_, ?_⟩⟩
    · exact hdevelopment.close_last.imp fun hclose e _ hcall => absurd hcall (hclose e)
    · exact hproduction.close_last.imp fun hclose e _ hcall => absurd hcall (hclose e)
    · intro a ha b hb e request hclose hsend
      have hfirst := hdevelopment.tier ha
      have hsecond := hproduction.tier hb
      simp only [hclose, hsend, Call.tier?] at hfirst hsecond
      simp_all

/-- A dispatcher with the smallest key. -/
def smallest : Dispatcher := ⟨some ⟨"team", "key", ⟨1, by decide, by decide⟩⟩⟩

/-- Two tokens for development and one for production between them. -/
def mixedTokens : List ActiveToken :=
  [⟨"a", .development, "app"⟩, ⟨"b", .production, "app"⟩, ⟨"c", .development, "beta"⟩]

/-- A world in which no session opens for production, the first request is
lost, the other one is answered by 410, and no mark is made. -/
def rough : Service Unit
  | .list _, s => (.ok mixedTokens, s)
  | .mint, s => (.ok ⟨"jwt", ⟨0, 0⟩, ⟨3000, 0⟩⟩, s)
  | .openSession .development, s => (.ok (), s)
  | .openSession .production, s => (.error (.transport "refused"), s)
  | .send _ request, s =>
    (if request.token = "a" then .error (.transport "lost") else .ok ⟨410, none, none⟩, s)
  | .mark _ _, s => (.error .poisoned, s)
  | .close _, s => ((), s)

/-- What they are told. -/
def notification : Payload := .ofText "Task completed" "Fix login flow"

/-- All that goes wrong in development leaves the other request there, the
close, and the call for a session for production. -/
theorem rough_journal_follows_tokens :
    smallest.isEnabled = true ∧ (rough (.list ⟨"ada"⟩) ()).1 = .ok mixedTokens ∧
      ∃ development production,
        ((smallest.sendToUser ⟨"ada"⟩ notification).run rough.recorded ((), [])).2.2 =
          ⟨.list ⟨"ada"⟩, .ok mixedTokens⟩ :: (development ++ production) ∧
        AboutTier notification.wireText .development
          [⟨"a", .development, "app"⟩, ⟨"c", .development, "beta"⟩] development ∧
        AboutTier notification.wireText .production [⟨"b", .production, "app"⟩] production := by
  have hlist : (rough (.list ⟨"ada"⟩) ()).1 = .ok mixedTokens := rfl
  obtain ⟨development, production, journal, hrun, hjournal, hdevelopment, hproduction, -⟩ :=
    journal_follows_tokens smallest rfl rough ⟨"ada"⟩ notification () hlist
  exact ⟨rfl, hlist, development, production, by rw [hrun, hjournal], hdevelopment, hproduction⟩

end Dispatcher

end Runwatch.Push
