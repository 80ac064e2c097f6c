/-
Runwatch.Proofs.Push.Fates — what becomes of each token of a delivery.

Whatever the world answers, each listed token comes to one of four ends
(`Fate`), and which one it is depends on what was answered about this token
and its tier alone: whether the tier got a provider token and a session, what
came back for the token's own request, and what the store said to its own
mark. The journal shows these answers (`TierAnswers.entries`), and the report
adds up the ends, so that none is counted twice and none is left out.

Nothing is assumed of the list, in which a token may stand twice.

  §1 Ends     — the end of a token, and the calls made about it and its tier.
  §2 Counting — how a report grows with the tokens served (`Grows`).
  §3 Tiers    — a tier is served as it is answered (`exists_tierAnswers`).
  §4 Reports  — the answers about both tiers, and what they add up to.

The main statement is `Dispatcher.report_accounts_for_each`.
-/
import Runwatch.Proofs.Push.Account

namespace Runwatch.Push

open Store (StoreError)

variable {σ : Type}

/-! ## §1 Ends -/

/-- A success ends the use of no token. -/
theorem Reply.not_endsUse {r : Reply} (h : r.IsSuccess) : ¬ r.EndsUse := fun hends => hends.1 h

/-- What becomes of a token of a delivery. -/
inductive Fate where
  | delivered
  /-- The store has ended its use. -/
  | invalidated
  /-- Its use was to end, and had ended before. -/
  | stale
  | failed
  deriving DecidableEq, Repr

/-- The end of a token whose use was to end, by the answer of the store. -/
def Fate.ofMark : Except StoreError Bool → Fate
  | .ok true => .invalidated
  | .ok false => .stale
  | .error _ => .failed

/-- A token and the answers about it: to its request, and to a mark of it. -/
structure Handling where
  token : ActiveToken
  reply : Except PushError Reply
  marking : Except StoreError Bool

namespace Handling

/-- What becomes of the token in an open session. -/
def fate (h : Handling) : Fate :=
  match h.reply with
  | .error _ => .failed
  | .ok reply =>
    if reply.IsSuccess then .delivered
    else if reply.EndsUse then .ofMark h.marking
    else .failed

/-- The calls about the token in an open session, with their answers. -/
def entries (e : Environment) (provider body : String) (h : Handling) : List Entry :=
  ⟨.send e ⟨h.token.token, provider, h.token.bundle, body⟩, h.reply⟩ ::
    match h.reply with
    | .error _ => []
    | .ok reply =>
      if reply.EndsUse then
        [⟨.mark h.token.token (reply.reason.getD "status 410"), h.marking⟩]
      else []

variable {e : Environment} {provider body : String} {t : ActiveToken} {reply : Reply}
  {marking : Except StoreError Bool}

theorem fate_of_isSuccess (h : reply.IsSuccess) : fate ⟨t, .ok reply, marking⟩ = .delivered :=
  if_pos h

theorem fate_of_endsUse (h : reply.EndsUse) : fate ⟨t, .ok reply, marking⟩ = .ofMark marking :=
  (if_neg h.1).trans (if_pos h)

theorem fate_of_kept (h : ¬ reply.IsSuccess) (h' : ¬ reply.EndsUse) :
    fate ⟨t, .ok reply, marking⟩ = .failed :=
  (if_neg h).trans (if_neg h')

theorem entries_of_endsUse (h : reply.EndsUse) :
    entries e provider body ⟨t, .ok reply, marking⟩ =
      [⟨.send e ⟨t.token, provider, t.bundle, body⟩, .ok reply⟩,
        ⟨.mark t.token (reply.reason.getD "status 410"), marking⟩] := by
  simp [entries, h]

theorem entries_of_not_endsUse (h : ¬ reply.EndsUse) :
    entries e provider body ⟨t, .ok reply, marking⟩ =
      [⟨.send e ⟨t.token, provider, t.bundle, body⟩, .ok reply⟩] := by
  simp [entries, h]

end Handling

/-- What is answered about a tier: to the mint, to the opening of a session,
and about its tokens, in their order. What was not asked may be anything. -/
structure TierAnswers where
  provider : Except PushError ProviderToken
  opening : Except PushError Unit
  handled : List Handling

namespace TierAnswers

/-- Whether the tier gets a provider token and a session. -/
def isOpen (a : TierAnswers) : Bool := a.provider.isOk && a.opening.isOk

/-- What becomes of a token of the tier. -/
def fateOf (a : TierAnswers) (h : Handling) : Fate := if a.isOpen then h.fate else .failed

/-- The tokens of the tier and what becomes of them. -/
def fates (a : TierAnswers) : List (String × Fate) :=
  a.handled.map fun h => (h.token.token, a.fateOf h)

/-- The calls for the tier with their answers; none if it has no tokens. -/
def entries (body : String) (e : Environment) (a : TierAnswers) : List Entry :=
  match a.handled, a.provider, a.opening with
  | [], _, _ => []
  | _ :: _, .error cause, _ => [⟨.mint, .error cause⟩]
  | _ :: _, .ok provider, .error cause =>
    [⟨.mint, .ok provider⟩, ⟨.openSession e, .error cause⟩]
  | handled, .ok provider, .ok () =>
    ⟨.mint, .ok provider⟩ :: ⟨.openSession e, .ok ()⟩ ::
      (handled.flatMap (·.entries e provider.text body) ++ [⟨.close e, ()⟩])

end TierAnswers

/-- The tokens of both tiers and what becomes of them. -/
def fatesOf (tier : Environment → TierAnswers) : List (String × Fate) :=
  (tier .development).fates ++ (tier .production).fates

/-- The calls for both tiers with their answers. -/
def entriesOf (tier : Environment → TierAnswers) (body : String) : List Entry :=
  (tier .development).entries body .development ++ (tier .production).entries body .production

/-- The tokens that come to one end, in order. -/
def withFate (f : Fate) (fates : List (String × Fate)) : List String :=
  (fates.filter (·.2 == f)).map Prod.fst

@[simp] theorem withFate_nil (f : Fate) : withFate f [] = [] := rfl

@[simp] theorem withFate_append (f : Fate) (xs ys : List (String × Fate)) :
    withFate f (xs ++ ys) = withFate f xs ++ withFate f ys := by
  simp [withFate]

theorem withFate_cons (f : Fate) (token : String) (g : Fate) (rest : List (String × Fate)) :
    withFate f ((token, g) :: rest) =
      if g = f then token :: withFate f rest else withFate f rest := by
  by_cases h : g = f <;> simp [withFate, h]

/-- Each token comes to one of the four ends. -/
theorem length_withFate (fates : List (String × Fate)) :
    (withFate .delivered fates).length + (withFate .invalidated fates).length +
      (withFate .failed fates).length + (withFate .stale fates).length = fates.length := by
  induction fates with
  | nil => rfl
  | cons first rest ih =>
    obtain ⟨token, f⟩ := first
    simp only [withFate_cons, List.length_cons, ← ih]
    cases f <;> simp only [reduceCtorEq, if_true, if_false, List.length_cons] <;> omega

/-! ## §2 Counting -/

/-- The tiers whose sessions were opened. -/
def opened (entries : List Entry) : List Environment :=
  entries.filterMap fun
    | ⟨.openSession e, .ok ()⟩ => some e
    | _ => none

/-- The tokens that a mark found out of use, in the order of the calls. -/
def unconfirmed (entries : List Entry) : List String :=
  entries.filterMap fun
    | ⟨.mark token _, .ok false⟩ => some token
    | _ => none

@[simp] theorem opened_append (xs ys : List Entry) : opened (xs ++ ys) = opened xs ++ opened ys :=
  List.filterMap_append

@[simp] theorem unconfirmed_append (xs ys : List Entry) :
    unconfirmed (xs ++ ys) = unconfirmed xs ++ unconfirmed ys := List.filterMap_append

/-- The report with one more token at its end. -/
def Report.ended (report : Report) (token : String) : Fate → Report
  | .delivered => { report with delivered := report.delivered + 1 }
  | .invalidated => { report with invalidated := report.invalidated ++ [token] }
  | .stale => report
  | .failed => report.fail 1

/-- How a report grows by the calls made and the tokens that come to an end. -/
structure Grows (fates : List (String × Fate)) (entries : List Entry) (before after : Report) :
    Prop where
  skipped : after.skipped = before.skipped
  sessionsOpened : after.sessionsOpened = before.sessionsOpened + (opened entries).length
  attempted : after.attempted = before.attempted + (replies entries).length
  delivered : after.delivered = before.delivered + (withFate .delivered fates).length
  invalidated : after.invalidated = before.invalidated ++ withFate .invalidated fates
  failed : after.failed = before.failed + (withFate .failed fates).length

namespace Grows

theorem refl (report : Report) : Grows [] [] report report :=
  ⟨rfl, rfl, rfl, rfl, (List.append_nil _).symm, rfl⟩

theorem trans {fates fates' : List (String × Fate)} {xs ys : List Entry}
    {before between after : Report} (h : Grows fates xs before between)
    (h' : Grows fates' ys between after) : Grows (fates ++ fates') (xs ++ ys) before after where
  skipped := h'.skipped.trans h.skipped
  sessionsOpened := by
    simp [h'.sessionsOpened, h.sessionsOpened, Nat.add_assoc]
  attempted := by
    simp [h'.attempted, h.attempted, Nat.add_assoc]
  delivered := by
    simp [h'.delivered, h.delivered, Nat.add_assoc]
  invalidated := by
    simp [h'.invalidated, h.invalidated]
  failed := by
    simp [h'.failed, h.failed, Nat.add_assoc]

/-- Tokens that are given up count as failures. -/
theorem fail {entries : List Entry} (hopened : opened entries = [])
    (hreplies : replies entries = []) (tokens : List ActiveToken) (report : Report) :
    Grows (tokens.map fun t => (t.token, .failed)) entries report
      (report.fail tokens.length) where
  skipped := rfl
  sessionsOpened := by rw [hopened]; rfl
  attempted := by rw [hreplies]; rfl
  delivered := by simp [withFate, Report.fail, List.filter_map, Function.comp_def]
  invalidated := by simp [withFate, Report.fail, List.filter_map, Function.comp_def]
  failed := by simp [withFate, Report.fail, List.filter_map, Function.comp_def]

/-- A token that was attempted counts by its end. -/
theorem ended {entries : List Entry} (hopened : opened entries = [])
    (hreplies : (replies entries).length = 1) (report : Report) (token : String) (f : Fate) :
    Grows [(token, f)] entries report
      ({ report with attempted := report.attempted + 1 }.ended token f) where
  skipped := by cases f <;> rfl
  sessionsOpened := by rw [hopened]; cases f <;> rfl
  attempted := by rw [hreplies]; cases f <;> rfl
  delivered := by cases f <;> rfl
  invalidated := by cases f <;> simp [Report.ended, Report.fail, withFate_cons]
  failed := by cases f <;> rfl

/-- The calls around a session add to the sessions only. -/
theorem session {fates : List (String × Fate)} {entries : List Entry} {before after : Report}
    (h : Grows fates entries { before with sessionsOpened := before.sessionsOpened + 1 } after)
    (e : Environment) (provider : ProviderToken) :
    Grows fates (⟨.mint, .ok provider⟩ :: ⟨.openSession e, .ok ()⟩ ::
      (entries ++ [⟨.close e, ()⟩])) before after where
  skipped := h.skipped
  sessionsOpened := by
    have hclose : opened [⟨.close e, ()⟩] = [] := rfl
    change after.sessionsOpened = before.sessionsOpened + (e :: opened (_ ++ [_])).length
    rw [h.sessionsOpened, opened_append, hclose, List.append_nil, List.length_cons]
    exact Nat.add_right_comm ..
  attempted := by
    have hclose : replies [⟨.close e, ()⟩] = [] := rfl
    change after.attempted = before.attempted + (replies (_ ++ [_])).length
    rw [h.attempted, replies_append, hclose, List.append_nil]
  delivered := h.delivered
  invalidated := h.invalidated
  failed := h.failed

end Grows

/-! ## §3 Tiers -/

theorem Handling.opened_entries (e : Environment) (provider body : String) (h : Handling) :
    opened (h.entries e provider body) = [] := by
  unfold Handling.entries
  split
  · rfl
  · split <;> rfl

theorem Handling.replies_entries (e : Environment) (provider body : String) (h : Handling) :
    (replies (h.entries e provider body)).length = 1 := by
  unfold Handling.entries
  split
  · rfl
  · split <;> rfl

/-- A mark that finds a token out of use is what makes it stale. -/
theorem Handling.unconfirmed_entries (e : Environment) (provider body : String) (h : Handling) :
    unconfirmed (h.entries e provider body) = withFate .stale [(h.token.token, h.fate)] := by
  obtain ⟨t, cause | reply, marking⟩ := h
  · rfl
  · by_cases hsuccess : reply.IsSuccess
    · rw [entries_of_not_endsUse (Reply.not_endsUse hsuccess), fate_of_isSuccess hsuccess]
      rfl
    · by_cases hends : reply.EndsUse
      · rw [entries_of_endsUse hends, fate_of_endsUse hends]
        rcases marking with cause | _ | _ <;> rfl
      · rw [entries_of_not_endsUse hends, fate_of_kept hsuccess hends]
        rfl

variable (service : Service σ)

/-- One token is served as its own answers say. -/
theorem exists_handling (e : Environment) (provider body : String) (report : Report)
    (t : ActiveToken) (s : σ) :
    ∃ h : Handling, h.token = t ∧
      (deliverOne e provider body report t).entries service s = h.entries e provider body ∧
      ((deliverOne e provider body report t).run service s).1 =
        { report with attempted := report.attempted + 1 }.ended t.token h.fate := by
  rw [deliverOne_eq, Plan.entries, Plan.run]
  rcases service (.send e ⟨t.token, provider, t.bundle, body⟩) s with ⟨cause | reply, s'⟩
  · exact ⟨⟨t, .error cause, .ok true⟩, rfl, rfl, rfl⟩
  · simp only
    by_cases hsuccess : reply.IsSuccess
    · refine ⟨⟨t, .ok reply, .ok true⟩, rfl, ?_, ?_⟩
      · rw [Reply.outcome_eq, if_pos hsuccess,
          Handling.entries_of_not_endsUse (Reply.not_endsUse hsuccess)]
        rfl
      · rw [Reply.outcome_eq, if_pos hsuccess, Handling.fate_of_isSuccess hsuccess]
        rfl
    · by_cases hends : reply.EndsUse
      · rw [Reply.outcome_eq, if_neg hsuccess, if_pos hends, settle_invalidToken, Plan.run,
          Plan.entries]
        rcases service (.mark t.token (reply.reason.getD "status 410")) s' with ⟨marking, s''⟩
        refine ⟨⟨t, .ok reply, marking⟩, rfl, ?_, ?_⟩
        · rw [Handling.entries_of_endsUse hends]
          rcases marking with cause | _ | _ <;> rfl
        · rw [Handling.fate_of_endsUse hends]
          rcases marking with cause | _ | _ <;> rfl
      · refine ⟨⟨t, .ok reply, .ok true⟩, rfl, ?_, ?_⟩
        · rw [Reply.outcome_eq, if_neg hsuccess, if_neg hends,
            Handling.entries_of_not_endsUse hends]
          rfl
        · rw [Reply.outcome_eq, if_neg hsuccess, if_neg hends,
            Handling.fate_of_kept hsuccess hends]
          rfl

/-- The tokens of a session are served one after the other. -/
theorem exists_handlings (e : Environment) (provider body : String) (tokens : List ActiveToken)
    (report : Report) (s : σ) :
    ∃ hs : List Handling, hs.map (·.token) = tokens ∧
      (deliverAll e provider body tokens report).entries service s =
        hs.flatMap (·.entries e provider body) ∧
      Grows (hs.map fun h => (h.token.token, h.fate)) (hs.flatMap (·.entries e provider body))
        report ((deliverAll e provider body tokens report).run service s).1 := by
  induction tokens generalizing report s with
  | nil => exact ⟨[], rfl, rfl, .refl report⟩
  | cons t rest ih =>
    obtain ⟨h, rfl, hentries, hrun⟩ := exists_handling service e provider body report t s
    have hfirst : Grows [(h.token.token, h.fate)] (h.entries e provider body) report
        ((deliverOne e provider body report h.token).run service s).1 := by
      rw [hrun]
      exact .ended (h.opened_entries e provider body) (h.replies_entries e provider body) report _ _
    obtain ⟨hs, rfl, hrest, hgrows⟩ := ih
      ((deliverOne e provider body report h.token).run service s).1
      ((deliverOne e provider body report h.token).run service s).2
    refine ⟨h :: hs, rfl, ?_, ?_⟩
    · simp [deliverAll, Plan.entries_bind, hentries, hrest]
    · simp only [deliverAll, Plan.bind_eq, Plan.run_bind]
      exact hfirst.trans hgrows

/-- A token about which nothing is asked. -/
def Handling.unasked (t : ActiveToken) : Handling := ⟨t, .error (.transport ""), .error .poisoned⟩

@[simp] theorem Handling.map_unasked (tokens : List ActiveToken) :
    (tokens.map unasked).map (·.token) = tokens := by
  rw [List.map_map]
  exact List.map_id tokens

namespace TierAnswers

/-- In a tier that is not open each token fails. -/
theorem fates_of_not_isOpen {a : TierAnswers} (h : a.isOpen = false) :
    a.fates = (a.handled.map (·.token)).map fun t => (t.token, .failed) := by
  simp [fates, fateOf, h]

theorem fates_of_isOpen {a : TierAnswers} (h : a.isOpen = true) :
    a.fates = a.handled.map fun h => (h.token.token, h.fate) := by
  simp [fates, fateOf, h]

variable {body : String} {e : Environment} {hs : List Handling}

theorem entries_unminted (h : hs ≠ []) (cause : PushError) (opening : Except PushError Unit) :
    entries body e ⟨.error cause, opening, hs⟩ = [⟨.mint, .error cause⟩] := by
  obtain ⟨first, rest, rfl⟩ := List.exists_cons_of_ne_nil h
  rfl

theorem entries_unopened (h : hs ≠ []) (provider : ProviderToken) (cause : PushError) :
    entries body e ⟨.ok provider, .error cause, hs⟩ =
      [⟨.mint, .ok provider⟩, ⟨.openSession e, .error cause⟩] := by
  obtain ⟨first, rest, rfl⟩ := List.exists_cons_of_ne_nil h
  rfl

theorem entries_served (h : hs ≠ []) (provider : ProviderToken) :
    entries body e ⟨.ok provider, .ok (), hs⟩ =
      ⟨.mint, .ok provider⟩ :: ⟨.openSession e, .ok ()⟩ ::
        (hs.flatMap (·.entries e provider.text body) ++ [⟨.close e, ()⟩]) := by
  obtain ⟨first, rest, rfl⟩ := List.exists_cons_of_ne_nil h
  rfl

end TierAnswers

/-- A tier with tokens is served as it is answered. -/
theorem exists_tierAnswers (body : String) (e : Environment) {tokens : List ActiveToken}
    (h : tokens ≠ []) (report : Report) (s : σ) :
    ∃ a : TierAnswers, a.handled.map (·.token) = tokens ∧
      (deliverGroup body e tokens report).entries service s = a.entries body e ∧
      Grows a.fates (a.entries body e) report
        ((deliverGroup body e tokens report).run service s).1 := by
  have hunasked : tokens.map Handling.unasked ≠ [] := by simpa using h
  -- A tier that is given up: its tokens count as failures.
  have hgrows {a : TierAnswers} (hclosed : a.isOpen = false)
      (ha : a.handled = tokens.map Handling.unasked) {entries : List Entry}
      (hopened : opened entries = []) (hreplies : replies entries = []) :
      Grows a.fates entries report (report.fail tokens.length) := by
    rw [TierAnswers.fates_of_not_isOpen hclosed, ha, Handling.map_unasked]
    exact .fail hopened hreplies tokens report
  rw [deliverGroup_eq, Plan.entries, Plan.run]
  rcases service .mint s with ⟨cause | provider, s'⟩
  · refine ⟨⟨.error cause, .ok (), tokens.map .unasked⟩, Handling.map_unasked tokens, ?_, ?_⟩
    · rw [TierAnswers.entries_unminted hunasked]
      rfl
    · rw [TierAnswers.entries_unminted hunasked]
      exact hgrows rfl rfl rfl rfl
  · simp only [Plan.entries, Plan.run]
    rcases service (.openSession e) s' with ⟨cause | _, s''⟩
    · refine ⟨⟨.ok provider, .error cause, tokens.map .unasked⟩, Handling.map_unasked tokens,
        ?_, ?_⟩
      · rw [TierAnswers.entries_unopened hunasked]
        rfl
      · rw [TierAnswers.entries_unopened hunasked]
        exact hgrows rfl rfl rfl rfl
    · obtain ⟨hs, rfl, hentries, hserved⟩ := exists_handlings service e provider.text body tokens
        { report with sessionsOpened := report.sessionsOpened + 1 } s''
      have hne : hs ≠ [] := by simpa using h
      refine ⟨⟨.ok provider, .ok (), hs⟩, rfl, ?_, ?_⟩
      · rw [TierAnswers.entries_served hne, ← hentries, Plan.entries_bind]
        rfl
      · rw [TierAnswers.entries_served hne, TierAnswers.fates_of_isOpen rfl, Plan.run_bind]
        exact hserved.session e provider

/-- What is left of some tiers is served tier by tier; those without tokens
are left out. -/
theorem exists_tier (body : String) (e : Environment) (group : List ActiveToken)
    (rest : List (Environment × List ActiveToken)) (report : Report) (s : σ) :
    ∃ (a : TierAnswers) (report' : Report) (s' : σ), a.handled.map (·.token) = group ∧
      (deliverGroups body (((e, group) :: rest).filter (!·.2.isEmpty)) report).entries service s =
        a.entries body e ++
          (deliverGroups body (rest.filter (!·.2.isEmpty)) report').entries service s' ∧
      ((deliverGroups body (((e, group) :: rest).filter (!·.2.isEmpty)) report).run service s).1 =
        ((deliverGroups body (rest.filter (!·.2.isEmpty)) report').run service s').1 ∧
      Grows a.fates (a.entries body e) report report' := by
  cases hgroup : group with
  | nil => exact ⟨⟨.ok ⟨"", ⟨0, 0⟩, ⟨0, 0⟩⟩, .ok (), []⟩, report, s, rfl, by rfl, by rfl, .refl report⟩
  | cons t later =>
    obtain ⟨a, ha, hentries, hgrows⟩ :=
      exists_tierAnswers service body e (List.cons_ne_nil t later) report s
    refine ⟨a, _, ((deliverGroup body e (t :: later) report).run service s).2, ha, ?_, ?_, hgrows⟩
    · rw [List.filter_cons_of_pos (by simp), deliverGroups, Plan.bind_eq, Plan.entries_bind,
        hentries]
    · rw [List.filter_cons_of_pos (by simp), deliverGroups, Plan.bind_eq, Plan.run_bind]

/-! ## §4 Reports -/

section

variable (e : Environment) (provider body : String) (hs : List Handling)

theorem opened_session : opened (hs.flatMap (·.entries e provider body)) = [] := by
  induction hs with
  | nil => rfl
  | cons h rest ih => simp [h.opened_entries, ih]

theorem length_replies_session :
    (replies (hs.flatMap (·.entries e provider body))).length = hs.length := by
  induction hs with
  | nil => rfl
  | cons h rest ih => simp [h.replies_entries, ih, Nat.add_comm]

theorem unconfirmed_session : unconfirmed (hs.flatMap (·.entries e provider body)) =
    withFate .stale (hs.map fun h => (h.token.token, h.fate)) := by
  induction hs with
  | nil => rfl
  | cons h rest ih =>
    rw [List.flatMap_cons, unconfirmed_append, h.unconfirmed_entries, ih, ← withFate_append]
    rfl

end

namespace TierAnswers

variable (body : String) (e : Environment) (a : TierAnswers)

/-- Either nothing is asked about the tokens of a tier, or they are served in
its session. -/
theorem entries_cases :
    (a.handled = [] ∨ a.isOpen = false) ∧ opened (a.entries body e) = [] ∧
        replies (a.entries body e) = [] ∧ unconfirmed (a.entries body e) = [] ∨
      (a.handled ≠ [] ∧ a.isOpen = true) ∧ ∃ provider : ProviderToken, a.entries body e =
        ⟨.mint, .ok provider⟩ :: ⟨.openSession e, .ok ()⟩ ::
          (a.handled.flatMap (·.entries e provider.text body) ++ [⟨.close e, ()⟩]) := by
  obtain ⟨provider, opening, handled⟩ := a
  by_cases h : handled = []
  · rw [h]
    exact .inl ⟨.inl rfl, rfl, rfl, rfl⟩
  · rcases provider with cause | provider
    · rw [entries_unminted h]
      exact .inl ⟨.inr rfl, rfl, rfl, rfl⟩
    · rcases opening with cause | _
      · rw [entries_unopened h]
        exact .inl ⟨.inr rfl, rfl, rfl, rfl⟩
      · exact .inr ⟨⟨h, rfl⟩, provider, entries_served h provider⟩

theorem opened_entries :
    opened (a.entries body e) = if a.handled ≠ [] ∧ a.isOpen = true then [e] else [] := by
  rcases a.entries_cases body e with ⟨hnot, hopened, -⟩ | ⟨hserved, provider, hentries⟩
  · rw [hopened, if_neg]
    rintro ⟨hne, hopen⟩
    rcases hnot with h | h
    · exact hne h
    · exact Bool.noConfusion (hopen.symm.trans h)
  · rw [hentries, if_pos hserved]
    change e :: opened (_ ++ [_]) = [e]
    rw [opened_append, opened_session]
    rfl

theorem length_replies_entries :
    (replies (a.entries body e)).length = if a.isOpen = true then a.handled.length else 0 := by
  rcases a.entries_cases body e with ⟨hnot, -, hreplies, -⟩ | ⟨⟨-, hopen⟩, provider, hentries⟩
  · rw [hreplies]
    rcases hnot with h | h <;> simp [h]
  · rw [hentries, if_pos hopen]
    change (replies (_ ++ [_])).length = _
    rw [replies_append, List.length_append, length_replies_session]
    rfl

theorem unconfirmed_entries : unconfirmed (a.entries body e) = withFate .stale a.fates := by
  rcases a.entries_cases body e with ⟨hnot, -, -, hnone⟩ | ⟨⟨-, hopen⟩, provider, hentries⟩
  · rw [hnone]
    rcases hnot with h | h
    · simp [fates, h]
    · simp [fates_of_not_isOpen h, withFate]
  · rw [hentries, fates_of_isOpen hopen, ← unconfirmed_session e provider.text body]
    change unconfirmed (_ ++ [_]) = _
    rw [unconfirmed_append]
    exact List.append_nil _

end TierAnswers

theorem filter_tier (p : Environment → Bool) (e : Environment) (tokens : List ActiveToken) :
    (tokens.filter (·.environment == e)).filter (fun t => p t.environment) =
      if p e = true then tokens.filter (·.environment == e) else [] := by
  have htier : ∀ t ∈ tokens.filter (·.environment == e), p t.environment = p e := by
    intro t ht
    rw [eq_of_beq (List.mem_filter.mp ht).2]
  rw [List.filter_congr htier]
  cases p e <;> simp

/-- The tokens of some tiers, counted tier by tier. -/
theorem length_filter_tiers (p : Environment → Bool) (tokens : List ActiveToken) :
    (tokens.filter fun t => p t.environment).length =
      (if p .development = true then (tokens.filter (·.environment == .development)).length else 0)
        + if p .production = true then (tokens.filter (·.environment == .production)).length
          else 0 := by
  have hperm := (tiers_perm tokens).filter fun t => p t.environment
  rw [← hperm.length_eq, List.filter_append, List.length_append, filter_tier, filter_tier]
  congr 1 <;> split <;> rfl

/-- A report that accounts for each token of a list, given the journal and
what becomes of the tokens. -/
structure AccountsForEach (tokens : List ActiveToken) (fates : List (String × Fate))
    (journal : List Entry) (report : Report) : Prop where
  skipped : report.skipped = none
  sessionsOpened : report.sessionsOpened = (opened journal).length
  /-- All tokens of the tiers that were opened, and no others. -/
  attempted : report.attempted =
    (tokens.filter fun t => (opened journal).contains t.environment).length
  delivered : report.delivered = (withFate .delivered fates).length
  invalidated : report.invalidated = withFate .invalidated fates
  failed : report.failed = (withFate .failed fates).length
  /-- The report leaves out the tokens that the store found out of use. -/
  stale : unconfirmed journal = withFate .stale fates
  total : report.delivered + report.invalidated.length + report.failed +
    (unconfirmed journal).length = tokens.length

section

variable {tier : Environment → TierAnswers} {tokens : List ActiveToken}

/-- Each listed token is in one tier. -/
theorem length_fatesOf
    (htokens : ∀ e, (tier e).handled.map (·.token) = tokens.filter (·.environment == e)) :
    (fatesOf tier).length = tokens.length := by
  have hlength (e : Environment) :
      (tier e).fates.length = (tokens.filter (·.environment == e)).length := by
    rw [← htokens e, TierAnswers.fates, List.length_map, List.length_map]
  have hall := length_filter_tiers (fun _ => true) tokens
  simp only [List.filter_true, if_true] at hall
  rw [fatesOf, List.length_append, hlength, hlength, hall]

theorem unconfirmed_entriesOf (tier : Environment → TierAnswers) (body : String) :
    unconfirmed (entriesOf tier body) = withFate .stale (fatesOf tier) := by
  rw [entriesOf, unconfirmed_append, TierAnswers.unconfirmed_entries,
    TierAnswers.unconfirmed_entries, fatesOf, withFate_append]

theorem mem_opened_entriesOf (tier : Environment → TierAnswers) (body : String) (e : Environment) :
    e ∈ opened (entriesOf tier body) ↔ (tier e).handled ≠ [] ∧ (tier e).isOpen = true := by
  rw [entriesOf, opened_append, TierAnswers.opened_entries, TierAnswers.opened_entries]
  cases e <;> split <;> split <;> simp_all

/-- Requests are sent for all tokens of the tiers that were opened. -/
theorem length_replies_entriesOf
    (htokens : ∀ e, (tier e).handled.map (·.token) = tokens.filter (·.environment == e))
    (body : String) : (replies (entriesOf tier body)).length =
      (tokens.filter fun t => (opened (entriesOf tier body)).contains t.environment).length := by
  have hsent (e : Environment) : (replies ((tier e).entries body e)).length =
      if (tier e).handled ≠ [] ∧ (tier e).isOpen = true then
        (tokens.filter (·.environment == e)).length else 0 := by
    rw [TierAnswers.length_replies_entries, ← htokens e, List.length_map]
    by_cases hnone : (tier e).handled = [] <;> simp [hnone]
  rw [length_filter_tiers]
  simp only [List.contains_iff_mem, mem_opened_entriesOf]
  rw [entriesOf, replies_append, List.length_append, hsent, hsent]

/-- A report that has grown from nothing by both tiers accounts for each token. -/
theorem Grows.accountsForEach {body : String} {report : Report}
    (h : Grows (fatesOf tier) (entriesOf tier body) Report.empty report)
    (htokens : ∀ e, (tier e).handled.map (·.token) = tokens.filter (·.environment == e))
    (user : UserId) :
    AccountsForEach tokens (fatesOf tier) (⟨.list user, .ok tokens⟩ :: entriesOf tier body)
      report := by
  have hattempted := h.attempted.trans (Nat.zero_add _)
  have hdelivered := h.delivered.trans (Nat.zero_add _)
  have hinvalidated := h.invalidated.trans (List.nil_append _)
  have hfailed := h.failed.trans (Nat.zero_add _)
  have hstale := unconfirmed_entriesOf tier body
  refine ⟨h.skipped, h.sessionsOpened.trans (Nat.zero_add _),
    hattempted.trans (length_replies_entriesOf htokens body), hdelivered, hinvalidated, hfailed,
    hstale, ?total⟩
  change report.delivered + _ + report.failed + (unconfirmed (entriesOf tier body)).length = _
  rw [hdelivered, hinvalidated, hfailed, hstale, length_withFate, length_fatesOf htokens]

end

namespace Dispatcher

/-- Both tiers are served as they are answered. -/
theorem exists_answers {d : Dispatcher} (hd : d.isEnabled = true) (user : UserId) (p : Payload)
    (s : σ) {tokens : List ActiveToken} (hne : tokens ≠ [])
    (hlist : (service (.list user) s).1 = .ok tokens) :
    ∃ tier : Environment → TierAnswers,
      (∀ e, (tier e).handled.map (·.token) = tokens.filter (·.environment == e)) ∧
      (d.sendToUser user p).entries service s =
        ⟨.list user, .ok tokens⟩ :: entriesOf tier p.wireText ∧
      Grows (fatesOf tier) (entriesOf tier p.wireText) Report.empty
        ((d.sendToUser user p).run service s).1 := by
  obtain ⟨t, rest, rfl⟩ := List.exists_cons_of_ne_nil hne
  obtain ⟨development, between, s', hdevelopment, hentries, hrun, hgrows⟩ :=
    exists_tier service p.wireText .development
      ((t :: rest).filter (·.environment == .development))
      [(.production, (t :: rest).filter (·.environment == .production))] Report.empty
      (service (.list user) s).2
  obtain ⟨production, after, s'', hproduction, hentries', hrun', hgrows'⟩ :=
    exists_tier service p.wireText .production
      ((t :: rest).filter (·.environment == .production)) [] between s'
  refine ⟨fun e => if e = .development then development else production, ?tokens, ?entries, ?grows⟩
  case tokens =>
    intro e
    cases e with
    | development => exact hdevelopment
    | production => exact hproduction
  case entries =>
    rw [sendToUser_eq hd, Plan.entries, hlist]
    simp only [groupByEnvironment, Environment.all, List.map_cons, List.map_nil]
    rw [hentries, hentries', entriesOf]
    simp [deliverGroups]
  case grows =>
    rw [sendToUser_eq hd, Plan.run]
    simp only [hlist, groupByEnvironment, Environment.all, List.map_cons, List.map_nil]
    rw [hrun, hrun']
    exact hgrows.trans hgrows'

/-- **A report accounts for each token.** If tokens are listed, the report is
not that of a skip, and of each token it counts one of four ends, which is
determined by the answers about its own tier, its own request and its own
mark; they add up to the tokens in the list. Otherwise nothing is counted,
and no session is asked for. -/
theorem report_accounts_for_each (d : Dispatcher) (user : UserId) (p : Payload) (s : σ) :
    let result := (d.sendToUser user p).run service.recorded (s, [])
    let report := result.1
    let journal := result.2.2
    (d.isEnabled = false → report = ⟨some .notConfigured, 0, 0, 0, [], 0⟩ ∧ journal = []) ∧
    (d.isEnabled = true →
      (∀ cause, (service (.list user) s).1 = .error cause →
        report = ⟨some .storeUnavailable, 0, 0, 0, [], 0⟩ ∧
          journal = [⟨.list user, .error cause⟩]) ∧
      ((service (.list user) s).1 = .ok [] →
        report = ⟨some .noActiveTokens, 0, 0, 0, [], 0⟩ ∧ journal = [⟨.list user, .ok []⟩]) ∧
      ∀ tokens, tokens ≠ [] → (service (.list user) s).1 = .ok tokens →
        ∃ tier : Environment → TierAnswers,
          (∀ e, (tier e).handled.map (·.token) = tokens.filter (·.environment == e)) ∧
          journal = ⟨.list user, .ok tokens⟩ :: entriesOf tier p.wireText ∧
          AccountsForEach tokens (fatesOf tier) journal report) := by
  simp only [Plan.run_recorded, List.nil_append]
  refine ⟨fun hd => ?_, fun hd => ⟨fun cause hlist => ?_, fun hlist => ?_, ?_⟩⟩
  · rw [sendToUser_of_not_isEnabled hd]
    exact ⟨rfl, rfl⟩
  · rw [sendToUser_eq hd, Plan.run, Plan.entries]
    simp only [hlist]
    exact ⟨rfl, rfl⟩
  · rw [sendToUser_eq hd, Plan.run, Plan.entries]
    simp only [hlist]
    exact ⟨rfl, rfl⟩
  · intro tokens hne hlist
    obtain ⟨tier, htokens, hentries, hgrows⟩ := exists_answers service hd user p s hne hlist
    refine ⟨tier, htokens, hentries, ?_⟩
    rw [hentries]
    exact hgrows.accountsForEach htokens user

/-- Six tokens for development, and two for production between them. -/
def eightTokens : List ActiveToken :=
  [⟨"a", .development, "app"⟩, ⟨"b", .development, "app"⟩, ⟨"g", .production, "app"⟩,
   ⟨"c", .development, "app"⟩, ⟨"d", .development, "app"⟩, ⟨"e", .development, "beta"⟩,
   ⟨"h", .production, "app"⟩, ⟨"f", .development, "app"⟩]

/-- A world in which one provider token is minted and no other, and in which
each token for development comes to its end in its own way. -/
def everyWay : Service Bool
  | .list _, minted => (.ok eightTokens, minted)
  | .mint, false => (.ok ⟨"jwt", ⟨0, 0⟩, ⟨3000, 0⟩⟩, true)
  | .mint, true => (.error (.signing "no signature"), true)
  | .openSession _, minted => (.ok (), minted)
  | .send _ request, minted =>
    (if request.token = "a" then .error (.transport "lost")
      else if request.token = "b" then .ok ⟨200, none, none⟩
      else if request.token = "c" then .ok ⟨503, some "Unavailable", none⟩
      else if request.token = "e" then .ok ⟨400, some "BadDeviceToken", none⟩
      else .ok ⟨410, none, none⟩, minted)
  | .mark token _, minted =>
    (if token = "d" then .ok true else if token = "e" then .ok false else .error .poisoned, minted)
  | .close _, minted => ((), minted)

/-- One token is delivered to, one is marked, one was marked before, and five
fail: by a lost request, a refusal, a failed mark, and two without a provider
token. -/
theorem everyWay_accounts :
    smallest.isEnabled = true ∧ eightTokens ≠ [] ∧
      (everyWay (.list ⟨"ada"⟩) false).1 = .ok eightTokens ∧
      ∃ tier : Environment → TierAnswers,
        AccountsForEach eightTokens (fatesOf tier)
          ((smallest.sendToUser ⟨"ada"⟩ notification).run everyWay.recorded (false, [])).2.2
          ⟨none, 1, 6, 1, ["d"], 5⟩ := by
  have hlist : (everyWay (.list ⟨"ada"⟩) false).1 = .ok eightTokens := rfl
  have hne : eightTokens ≠ [] := by decide
  obtain ⟨-, htold⟩ := report_accounts_for_each everyWay smallest ⟨"ada"⟩ notification false
  obtain ⟨tier, -, -, haccounts⟩ := (htold rfl).2.2 eightTokens hne hlist
  have hreport : ((smallest.sendToUser ⟨"ada"⟩ notification).run everyWay.recorded (false, [])).1 =
      ⟨none, 1, 6, 1, ["d"], 5⟩ := by decide +kernel
  exact ⟨rfl, hne, hlist, tier, hreport ▸ haccounts⟩

end Dispatcher

end Runwatch.Push
