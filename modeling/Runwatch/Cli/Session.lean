/-
Runwatch.Cli.Session — carrying out a command.

A command that waits or follows a log goes on while the world changes, so
it is a `Session` with small steps: a directory reports a change (`notice`),
the read loop makes a step (`advance`), the command itself looks whether
what it waits for has come (`attend`), its time is over (`expire`), the user
interrupts it (`interrupt`). The other commands are over when they have
begun. `runOut` is what comes of a session while nothing changes any more.
-/
import Runwatch.Cli.Command
import Runwatch.Cli.Error
import Runwatch.Config.Credentials
import Runwatch.Marker.Detector
import Runwatch.Push.Service
import Runwatch.Store.File
import Runwatch.Telemetry.Detector
import Runwatch.Telemetry.Watch

namespace Runwatch.Cli

open Push (Delivery Dispatcher Plan Report)
open Store (Database StoreError)
open Telemetry (Change DetectError Event EventTest)

/-! ## Followers -/

/-- A detector whose observers print lines. -/
abbrev Follower := Telemetry.Detector Unit (List String)

/-- The line that tells of an event. -/
def eventLine (e : Event) : String := Json.compact e.toJson

/-- An observer that prints each event prints its line. -/
def printReaction (_ : Unit) (e : Event) : Telemetry.Reaction Unit (List String) :=
  .act (fun c => { c with user := c.user ++ [eventLine e] }) fun _ => .done (.custom ())

/-- How the observers of a follower behave. -/
def followerBehaviour :
    Telemetry.Behaviour (Telemetry.Observer Unit) (Telemetry.Control (List String)) :=
  Telemetry.observerBehaviour printReaction

/-- Begins to wait for the first event that passes a test. -/
def Follower.await (d : Follower) (t : EventTest) : Follower × Nat :=
  let (d, _, key) := d.waitFor followerBehaviour fun _ e => t.accepts e
  (d, key)

/-- The test for what a command waits for. -/
def WaitTarget.test : WaitTarget → EventTest
  | .userTurn => .userTurn
  | .agentFinish => .agentFinish

/-! ## Sessions -/

/-- What a command finds when it begins. -/
structure Surroundings where
  tree : Files.Tree
  environment : String → Option String
  now : Time.Instant
  deliver : Net.HttpRequest → Delivery

/-- What a session is at. -/
inductive Activity where
  /-- Waits for a marker. -/
  | marker (detector : Marker.Detector) (stage : Marker.Stage)
  /-- Waits for an event; the number of its mailbox. -/
  | event (follower : Follower) (key : Nat)
  /-- Prints events; the number of the mailbox for the end, and whether the
  session ends with it. -/
  | tail (follower : Follower) (key : Nat) (untilFinish : Bool)
  | over (result : Except CommandError Unit)

/-- A command that is carried out. -/
structure Session where
  tree : Files.Tree
  printed : List String
  timeout : Option UInt64
  activity : Activity

namespace Session

/-- A session that is over. -/
def ended (tree : Files.Tree) (printed : List String) (result : Except CommandError Unit) : Session :=
  ⟨tree, printed, none, .over result⟩

/-- The lines that are printed. -/
def lines (s : Session) : List String :=
  match s.activity with
  | .tail d _ _ => s.printed ++ d.hub.world.user
  | _ => s.printed

/-- The session after it has ended. -/
def finish (s : Session) (result : Except CommandError Unit) : Session :=
  ended s.tree s.lines result

/-- Whether a session is over. -/
def isOver (s : Session) : Bool :=
  match s.activity with
  | .over _ => true
  | _ => false

/-! ### Steps -/

/-- The command looks whether what it waits for has come. -/
def attend (s : Session) : Session :=
  match s.activity with
  | .marker d stage =>
    let (d, stage) := Marker.poll d stage
    match stage.outcome? with
    | some .resolved => ended s.tree (s.printed ++ [d.path]) (.ok ())
    | some .stopped => ended s.tree s.printed (.error (.detect .stopped))
    | none => { s with activity := .marker d stage }
  | .event d key =>
    match d.pollWait key with
    | (_, some (.ok e)) => ended s.tree (s.printed ++ [eventLine e]) (.ok ())
    | (_, some (.error e)) => ended s.tree s.printed (.error (.detect e))
    | (d, none) => { s with activity := .event d key }
  | .tail d key true =>
    match d.pollWait key with
    | (d, some found) =>
      { s with activity := .tail d key true }.finish ((found.map fun _ => ()).mapError .detect)
    | (d, none) => { s with activity := .tail d key true }
  | .tail _ _ false => s
  | .over _ => s

/-- The session with something done to its follower. -/
def onFollower (s : Session) (f : Follower → Follower) : Session :=
  match s.activity with
  | .event d key => { s with activity := .event (f d) key }
  | .tail d key untilFinish => { s with activity := .tail (f d) key untilFinish }
  | _ => s

/-- A watched directory reports a change. -/
def notice (s : Session) (c : Change) : Session :=
  match s.activity with
  | .marker d stage => { s with activity := .marker (d.notice c) stage }
  | _ => s.onFollower fun d =>
    if c.touches ((Files.fileName? d.path).getD "") then d.signal else d

/-- The read loop makes a step, if it can. -/
def advance (s : Session) : Session :=
  s.onFollower fun d =>
    (d.advance followerBehaviour 1 (Telemetry.Sight.of s.tree d.path)).getD d

/-- The time that the command has is over. -/
def expire (s : Session) : Session :=
  match s.activity, s.timeout with
  | .marker _ _, some secs => s.finish (.error (.timeout .marker secs))
  | .event _ _, some secs => s.finish (.error (.timeout .event secs))
  | _, _ => s

/-- The user interrupts the command. -/
def interrupt (s : Session) : Session :=
  match s.activity with
  | .tail _ _ _ => s.finish (.ok ())
  | _ => s

/-- How many steps a read loop can make on a log before it waits, at most:
no object is shorter than two bytes, and a few steps come before and after
each batch. -/
def loopSteps (s : Session) (d : Follower) : Nat :=
  match Telemetry.Sight.of s.tree d.path with
  | .log bytes => bytes.length + 16
  | _ => 16

/-- Lets the read loop run until it waits for a change. -/
def readOn (s : Session) : Session :=
  s.onFollower fun d =>
    d.runLoop followerBehaviour 1 (Telemetry.Sight.of s.tree d.path) (s.loopSteps d)

/-- What comes of a session while nothing changes any more: what is there is
read if there is any time for it, and then the time is over. -/
def runOut (s : Session) : Session :=
  let s := if s.timeout == some 0 then s else s.readOn
  s.attend.expire

/-! ### Beginnings -/

/-- The database of a configuration, with its table. -/
def openStore (settings : Settings) (tree : Files.Tree) : Files.Tree × Except StoreError Database :=
  let (tree, found) := Store.openAt tree settings.store.path
  (tree, found.map Database.migrate)

/-- Carries a delivery out and prints its report. -/
def beginPush (w : Surroundings) (settings : Settings) (plan : Dispatcher → Plan Report) :
    Session :=
  match openStore settings w.tree with
  | (tree, .error e) => ended tree [] (.error (.store e))
  | (tree, .ok d) =>
    let dispatcher := Dispatcher.ofCredentials (Credentials.ofLookup w.environment)
    let transport := Push.httpTransport ⟨none⟩ w.deliver
    let (report, world) :=
      (plan dispatcher).run (Push.serviceOf Store.database dispatcher transport) ⟨d, (), w.now⟩
    ended (Store.save tree settings.store.path world.store) [Json.compact report.toJson] (.ok ())

/-- Enters a token. -/
def beginRegister (w : Surroundings) (settings : Settings) (r : Registration) : Session :=
  match openStore settings w.tree with
  | (tree, .error e) => ended tree [] (.error (.store e))
  | (tree, .ok d) =>
    let (d, found) := d.register w.now r
    ended (Store.save tree settings.store.path d) []
      ((found.map fun _ => ()).mapError CommandError.store)

/-- Begins to wait for a marker. -/
def beginMarker (tree : Files.Tree) (layout : Layout) (id : TaskRunId) (timeout : Option UInt64) :
    Session :=
  let watch := Telemetry.openWatch tree layout.lifecycleDir
  match Marker.Detector.start layout.lifecycleDir id (tree.has (layout.markerPath id)) watch with
  | .error e => ended tree [] (.error (.detect e))
  | .ok d => attend ⟨tree, [], timeout, .marker d .entered⟩

/-- Starts a follower and begins what it is for. -/
def beginFollowing (tree : Files.Tree) (timeout : Option UInt64) (d : Follower)
    (activity : Follower → Activity) : Session :=
  match d.start (Telemetry.openWatch tree d.directory) with
  | (_, .error e) => ended tree [] (.error (.detect e))
  | (d, .ok ()) => ⟨tree, [], timeout, activity d⟩

/-- The log that a command reads. -/
def telemetryPath (settings : Settings) (taskRun : String) (override : Option String) : String :=
  override.getD (settings.layout.telemetryLogPath ⟨taskRun⟩)

/-- The payload of a notification that a user writes. -/
def adHocPayload (settings : Settings) (title body : String) (data : List (String × String)) :
    Push.Payload :=
  data.foldl (fun p (key, value) => p.withData key (.string value))
    ((Push.Payload.ofText title body).withSound settings.push.sound)

/-- How a run ended, with the error that may have been given. -/
def RunEnd.outcome (error : Option String) : RunEnd → Push.RunOutcome
  | .completed => .completed
  | .failed => .failed error

/-- Begins a command under a configuration. -/
def beginCommand (w : Surroundings) (settings : Settings) : Command → Session
  | .waitMarker taskRun lifecycleDir timeout =>
    let layout :=
      { settings.layout with lifecycleDir := lifecycleDir.getD settings.layout.lifecycleDir }
    beginMarker w.tree layout ⟨taskRun⟩ timeout
  | .waitTelemetry taskRun target logPath timeout =>
    let (d, key) :=
      Follower.await (.ofPath (telemetryPath settings taskRun logPath) []) target.test
    beginFollowing w.tree timeout d fun d => .event d key
  | .tailTelemetry taskRun logPath untilFinish =>
    let d : Follower := .ofPath (telemetryPath settings taskRun logPath) []
    let (d, key) := Follower.await (d.subscribe (.custom ())).1 .agentFinish
    beginFollowing w.tree none d fun d => .tail d key untilFinish
  | .registerToken user token bundle environment =>
    beginRegister w settings ⟨token, ⟨user⟩, environment, bundle⟩
  | .notify user title body data =>
    beginPush w settings fun dispatcher =>
      dispatcher.sendToUser ⟨user⟩ (adHocPayload settings title body data)
  | .notifyRun user taskRun outcome title error =>
    beginPush w settings fun dispatcher =>
      dispatcher.notifyRun ⟨⟨taskRun⟩, ⟨user⟩, RunEnd.outcome error outcome⟩ title

/-- The paths that a command looks at under a configuration. -/
def paths (settings : Settings) : Command → List String
  | .waitMarker taskRun lifecycleDir _ =>
    let dir := lifecycleDir.getD settings.layout.lifecycleDir
    [dir, Files.join dir (markerFileName ⟨taskRun⟩)]
  | .waitTelemetry taskRun _ logPath _ => [telemetryPath settings taskRun logPath]
  | .tailTelemetry taskRun logPath _ => [telemetryPath settings taskRun logPath]
  | .registerToken .. | .notify .. | .notifyRun .. => [settings.store.path]

/-- The paths that an invocation looks at, as far as `tree` tells. -/
def pathsOf (tree : Files.Tree) (i : Invocation) : List String :=
  match Settings.loadOrStandard tree i.config with
  | .ok settings => i.config :: paths settings i.command
  | .error _ => [i.config]

/-- The path whose changes a session waits for. -/
def watched? (s : Session) : Option String :=
  match s.activity with
  | .marker d _ => some d.path
  | .event d _ => some d.path
  | .tail d _ _ => some d.path
  | .over _ => none

/-- Begins an invocation. -/
def start (w : Surroundings) (i : Invocation) : Session :=
  match Settings.loadOrStandard w.tree i.config with
  | .error e => ended w.tree [] (.error (.config i.config e))
  | .ok settings => beginCommand w settings i.command

end Session

/-! ## Ends -/

/-- The code with which a session ends; none while it goes on. -/
def Session.exitCode? (s : Session) : Option Nat :=
  match s.activity with
  | .over (.ok ()) => some 0
  | .over (.error _) => some 1
  | _ => none

/-- What is said of the failure of a session. -/
def Session.failure? (s : Session) : Option String :=
  match s.activity with
  | .over (.error e) => some ("sentinel failed: " ++ e.message)
  | _ => none

/-- The name and the version of the program. -/
def versionLine : String := "sentinel 0.1.0"

/-- The line that shows how a command is written. -/
def usageLine (name : String) (options : List OptionSpec) : String :=
  String.intercalate " " ("  sentinel" :: name :: (options ++ [configOption]).map fun o =>
    "[--" ++ o.name ++ (if o.kind == .flag then "]" else " <" ++ o.name ++ ">]"))

/-- The lines that show how the commands are written. -/
def usageLines : List String :=
  "Usage:" :: commands.map fun (name, options, _) => usageLine name options

/-- What is printed in place of a command. -/
def UsageError.lines : UsageError → List String
  | .version => [versionLine]
  | .help | .nothingGiven => usageLines
  | _ => "error: the arguments are not a command" :: usageLines

end Runwatch.Cli
