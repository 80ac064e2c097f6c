/-
Runwatch.Push.Dispatch — telling all devices of a user.

A dispatcher lists the active tokens of the user and serves them tier by
tier: for each tier it mints one provider token, opens one session, sends
one request for each token in the order of the list, and closes the
session. A reply that says that a token must not be used again is passed on
to the store. Failures are counted in a `Report` and end nothing but what
they are about; a dispatcher without a signer does nothing.
-/
import Runwatch.Push.Notice
import Runwatch.Push.Plan

namespace Runwatch.Push

open Json (Value)

/-! ## Reports -/

/-- Why nothing was sent. -/
inductive SkipReason where
  | notConfigured
  | noActiveTokens
  | storeUnavailable
  deriving DecidableEq, Repr

/-- The word of a reason. -/
def SkipReason.word : SkipReason → String
  | .notConfigured => "not_configured"
  | .noActiveTokens => "no_active_tokens"
  | .storeUnavailable => "store_unavailable"

/-- What came of a delivery. -/
structure Report where
  skipped : Option SkipReason
  sessionsOpened : Nat
  attempted : Nat
  delivered : Nat
  /-- The tokens whose use was ended, in order. -/
  invalidated : List String
  failed : Nat
  deriving DecidableEq, Repr

namespace Report

/-- Nothing has happened. -/
def empty : Report := ⟨none, 0, 0, 0, [], 0⟩

/-- Nothing was sent. -/
def ofSkip (reason : SkipReason) : Report := { empty with skipped := some reason }

/-- The report with `n` more failures. -/
def fail (r : Report) (n : Nat) : Report := { r with failed := r.failed + n }

/-- A report as a JSON value. -/
def toJson (r : Report) : Value :=
  .object
    [("skipped", Value.ofString? (r.skipped.map SkipReason.word)),
     ("sessions_opened", Value.ofNat r.sessionsOpened), ("attempted", Value.ofNat r.attempted),
     ("delivered", Value.ofNat r.delivered),
     ("invalidated", .array (r.invalidated.map Value.string)), ("failed", Value.ofNat r.failed)]

end Report

/-! ## Delivery -/

/-- Acts on the outcome of a request. -/
def settle (t : ActiveToken) (report : Report) : Outcome → Plan Report
  | .delivered => pure { report with delivered := report.delivered + 1 }
  | .rejected _ _ => pure (report.fail 1)
  | .invalidToken reason => do
    match ← Plan.call (.mark t.token reason) with
    | .ok true => pure { report with invalidated := report.invalidated ++ [t.token] }
    | .ok false => pure report
    | .error _ => pure (report.fail 1)

/-- Sends to one token. -/
def deliverOne (environment : Environment) (provider body : String) (report : Report)
    (t : ActiveToken) : Plan Report := do
  let report := { report with attempted := report.attempted + 1 }
  match ← Plan.call (.send environment (.ofToken t provider body)) with
  | .ok reply => settle t report reply.outcome
  | .error _ => pure (report.fail 1)

/-- Sends to some tokens in one session. -/
def deliverAll (environment : Environment) (provider body : String) :
    List ActiveToken → Report → Plan Report
  | [], report => pure report
  | t :: rest, report => do
    let report ← deliverOne environment provider body report t
    deliverAll environment provider body rest report

/-- Serves the tokens of one tier. -/
def deliverGroup (body : String) (environment : Environment) (tokens : List ActiveToken)
    (report : Report) : Plan Report := do
  match ← Plan.call .mint with
  | .error _ => pure (report.fail tokens.length)
  | .ok provider =>
    match ← Plan.call (.openSession environment) with
    | .error _ => pure (report.fail tokens.length)
    | .ok () => do
      let report := { report with sessionsOpened := report.sessionsOpened + 1 }
      let report ← deliverAll environment provider.text body tokens report
      Plan.call (.close environment)
      pure report

/-- Serves tier by tier. -/
def deliverGroups (body : String) :
    List (Environment × List ActiveToken) → Report → Plan Report
  | [], report => pure report
  | (environment, tokens) :: rest, report => do
    let report ← deliverGroup body environment tokens report
    deliverGroups body rest report

/-! ## Dispatchers -/

/-- Sends notifications if it has a signer. -/
structure Dispatcher where
  signer : Option Signer

namespace Dispatcher

/-- The dispatcher for some credentials; without usable ones it has no
signer. -/
def ofCredentials (c : Option Credentials) : Dispatcher :=
  ⟨c.bind fun c => (Signer.ofCredentials c).toOption⟩

/-- Whether anything can be sent. -/
def isEnabled (d : Dispatcher) : Bool := d.signer.isSome

/-- Tells all devices of a user. -/
def sendToUser (d : Dispatcher) (user : UserId) (p : Payload) : Plan Report :=
  if !d.isEnabled then pure (Report.ofSkip .notConfigured)
  else do
    match ← Plan.call (.list user) with
    | .error _ => pure (Report.ofSkip .storeUnavailable)
    | .ok [] => pure (Report.ofSkip .noActiveTokens)
    | .ok tokens => deliverGroups p.wireText (groupByEnvironment tokens) Report.empty

/-- Tells the user of a task run how it ended. -/
def notifyRun (d : Dispatcher) (n : RunNotice) (title : Option String) : Plan Report :=
  d.sendToUser n.user (n.payload title)

/-- A provider token that holds from a time on. -/
def mintAt (d : Dispatcher) (now : Time.Instant) : Except PushError ProviderToken :=
  match d.signer with
  | none => .error (.signing "no signing key")
  | some signer =>
    match signer.mint now with
    | .ok token => .ok token
    | .error (.push cause) => .error cause
    | .error .beyondCalendar => .error (.signing "time beyond the calendar")

end Dispatcher

end Runwatch.Push
