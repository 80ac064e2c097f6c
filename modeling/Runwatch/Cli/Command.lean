/-
Runwatch.Cli.Command — the commands of the program.

`parse` reads arguments as an `Invocation`: a command with its options, and
the configuration file, which may be named before or behind the command.
`Invocation.arguments` writes one down so that it is read back.
-/
import Runwatch.Cli.Arguments
import Runwatch.Config.Settings
import Runwatch.Push.Notice

namespace Runwatch.Cli

open Json (Value)

/-! ## Commands -/

/-- The event that a command waits for. -/
inductive WaitTarget where
  | userTurn
  | agentFinish
  deriving DecidableEq, Repr

/-- How a run ended, as a command says. -/
inductive RunEnd where
  | completed
  | failed
  deriving DecidableEq, Repr

/-- What the program is told to do. -/
inductive Command where
  /-- Wait for the marker of a task run and print its path. -/
  | waitMarker (taskRun : String) (lifecycleDir : Option String) (timeoutSecs : Option UInt64)
  /-- Wait for an event of a task run and print it. -/
  | waitTelemetry (taskRun : String) (target : WaitTarget) (logPath : Option String)
      (timeoutSecs : Option UInt64)
  /-- Print the events of a task run as they come. -/
  | tailTelemetry (taskRun : String) (logPath : Option String) (untilFinish : Bool)
  /-- Enter a device token. -/
  | registerToken (user token bundle : String) (environment : Environment)
  /-- Send a notification to a user. -/
  | notify (user title body : String) (data : List (String × String))
  /-- Tell a user how a task run ended. -/
  | notifyRun (user taskRun : String) (outcome : RunEnd) (title error : Option String)
  deriving DecidableEq, Repr

/-- A command with the configuration file to use. -/
structure Invocation where
  config : String
  command : Command
  deriving DecidableEq, Repr

/-- The configuration file that is used where none is named. -/
def standardConfig : String := "sentinel.toml"

/-! ## Values -/

/-- The words of the events that can be waited for. -/
def WaitTarget.words : List (String × WaitTarget) :=
  [("user-turn", .userTurn), ("agent-finish", .agentFinish)]

/-- The word of a target. -/
def WaitTarget.word : WaitTarget → String
  | .userTurn => "user-turn"
  | .agentFinish => "agent-finish"

/-- The words of the ends of a run. -/
def RunEnd.words : List (String × RunEnd) := [("completed", .completed), ("failed", .failed)]

/-- The word of an end. -/
def RunEnd.word : RunEnd → String
  | .completed => "completed"
  | .failed => "failed"

/-- Any text. -/
def anyText (_ : String) : Except UsageError Unit := .ok ()

/-- A path, which is not empty. -/
def aPath (value : String) : Except UsageError Unit :=
  if value.isEmpty then .error .invalidValue else .ok ()

/-- A number of seconds. -/
def seconds (value : String) : Except UsageError Unit :=
  if (Text.word64? value.toList).isSome then .ok () else .error .badForm

/-- One of some words. -/
def oneOf (words : List (String × α)) (value : String) : Except UsageError Unit :=
  if (words.lookup value).isSome then .ok () else .error .invalidValue

/-- The word of a tier. -/
def aTier (value : String) : Except UsageError Unit :=
  match Environment.parse value with
  | .ok _ => .ok ()
  | .error _ => .error .badForm

/-- An entry with key and value. -/
def anEntry (value : String) : Except UsageError Unit :=
  match parseEntry value with
  | .ok _ => .ok ()
  | .error _ => .error .badForm

/-! ## Reading -/

/-- An option with a text. -/
def textOption (name : String) : OptionSpec := ⟨name, .once, anyText⟩

/-- An option with a path. -/
def pathOption (name : String) : OptionSpec := ⟨name, .once, aPath⟩

/-- The option that names the configuration file; it may stand anywhere. -/
def configOption : OptionSpec := pathOption "config"

/-- The commands by name, each with its options and the command that they
make once they are settled. -/
def commands : List (String × List OptionSpec × (Given → Except UsageError Command)) :=
  [("wait-marker",
     [textOption "task-run-id", pathOption "lifecycle-dir", ⟨"timeout-secs", .once, seconds⟩],
     fun g => do
       pure (.waitMarker (← g.required "task-run-id") (g.value? "lifecycle-dir")
         ((g.value? "timeout-secs").bind fun s => Text.word64? s.toList))),
   ("wait-telemetry",
     [textOption "task-run-id", ⟨"until", .once, oneOf WaitTarget.words⟩, pathOption "log-path",
      ⟨"timeout-secs", .once, seconds⟩],
     fun g => do
       pure (.waitTelemetry (← g.required "task-run-id")
         (((g.value? "until").bind fun w => WaitTarget.words.lookup w).getD .agentFinish) (g.value? "log-path")
         ((g.value? "timeout-secs").bind fun s => Text.word64? s.toList))),
   ("tail-telemetry",
     [textOption "task-run-id", pathOption "log-path", ⟨"until-finish", .flag, anyText⟩],
     fun g => do
       pure (.tailTelemetry (← g.required "task-run-id") (g.value? "log-path")
         (g.has "until-finish"))),
   ("register-token",
     [textOption "user", textOption "token", textOption "bundle-id",
      ⟨"environment", .once, aTier⟩],
     fun g => do
       pure (.registerToken (← g.required "user") (← g.required "token") (← g.required "bundle-id")
         (((g.value? "environment").bind fun s => (Environment.parse s).toOption).getD
           Environment.standard))),
   ("notify",
     [textOption "user", textOption "title", textOption "body", ⟨"data", .repeated, anEntry⟩],
     fun g => do
       pure (.notify (← g.required "user") (← g.required "title") (← g.required "body")
         ((g.values "data").filterMap fun s => (parseEntry s).toOption))),
   ("notify-run",
     [textOption "user", textOption "task-run-id", ⟨"outcome", .once, oneOf RunEnd.words⟩,
      textOption "title", textOption "error"],
     fun g => do
       pure (.notifyRun (← g.required "user") (← g.required "task-run-id")
         (((g.value? "outcome").bind fun w => RunEnd.words.lookup w).getD .completed) (g.value? "title")
         (g.value? "error")))]

/-- The command that asks for help on a command. -/
def helpCommand : String := "help"

/-- The level before the command. -/
def topLevel : Level := ⟨[configOption], commands.map (·.1) ++ [helpCommand], true⟩

/-- The level behind a command with some options. -/
def commandLevel (options : List OptionSpec) : Level := ⟨options ++ [configOption], [], false⟩

/-- The answer to a request for help on some commands: one of them at most,
and one that there is. -/
def helpAnswer (names : List String) : UsageError :=
  match names with
  | [] => .help
  | [name] => if topLevel.commands.contains name then .help else .unknownCommand
  | _ => .unknownCommand

/-- Reads the arguments behind a command; gives what was given there. -/
def parseBehind (options : List OptionSpec) (arguments : List String) :
    Except UsageError Given := do
  let (p, _) ← (commandLevel options).scan Progress.start arguments
  p.settlePending

/-- Reads arguments. -/
def parse (arguments : List String) : Except UsageError Invocation := do
  let (p, found) ← topLevel.scan Progress.start arguments
  match found with
  | none =>
    let given ← p.settlePending
    .error (if given.isEmpty then .nothingGiven else .missingCommand)
  | some (name, rest) =>
    match commands.lookup name with
    | none => .error (helpAnswer rest)
    | some (options, make) => do
      let behind ← parseBehind options rest
      let command ← make behind
      let before ← p.settlePending
      let config := (behind.value? configOption.name).orElse fun _ =>
        before.value? configOption.name
      pure ⟨config.getD standardConfig, command⟩

/-! ## Writing -/

/-- An option that is given if there is a value. -/
def given? (name : String) (value : Option String) : List (String × Option String) :=
  match value with
  | some value => [(name, some value)]
  | none => []

/-- The name of a command. -/
def Command.name : Command → String
  | .waitMarker .. => "wait-marker"
  | .waitTelemetry .. => "wait-telemetry"
  | .tailTelemetry .. => "tail-telemetry"
  | .registerToken .. => "register-token"
  | .notify .. => "notify"
  | .notifyRun .. => "notify-run"

/-- The options of a command with the values that they carry. -/
def Command.options : Command → List (String × Option String)
  | .waitMarker taskRun lifecycleDir timeoutSecs =>
    ("task-run-id", some taskRun) :: given? "lifecycle-dir" lifecycleDir
      ++ given? "timeout-secs" (timeoutSecs.map fun n => Text.decimal n.toNat)
  | .waitTelemetry taskRun target logPath timeoutSecs =>
    ("task-run-id", some taskRun) :: ("until", some target.word) :: given? "log-path" logPath
      ++ given? "timeout-secs" (timeoutSecs.map fun n => Text.decimal n.toNat)
  | .tailTelemetry taskRun logPath untilFinish =>
    ("task-run-id", some taskRun) :: given? "log-path" logPath
      ++ (if untilFinish then [("until-finish", none)] else [])
  | .registerToken user token bundle environment =>
    [("user", some user), ("token", some token), ("bundle-id", some bundle),
     ("environment", some environment.word)]
  | .notify user title body data =>
    ("user", some user) :: ("title", some title) :: ("body", some body)
      :: data.map fun (key, value) => ("data", some (key ++ "=" ++ value))
  | .notifyRun user taskRun outcome title error =>
    ("user", some user) :: ("task-run-id", some taskRun) :: ("outcome", some outcome.word)
      :: given? "title" title ++ given? "error" error

/-- The arguments of an invocation. -/
def Invocation.arguments (i : Invocation) : List String :=
  optionText configOption.name (some i.config) :: i.command.name
    :: i.command.options.map fun (name, value) => optionText name value

/-- A command as a JSON value. -/
def Command.toJson (c : Command) : Value :=
  let cmd : String × Value := ("cmd", .string c.name)
  match c with
  | .waitMarker taskRun lifecycleDir timeoutSecs =>
    .object
      [cmd, ("task_run_id", .string taskRun), ("lifecycle_dir", Value.ofString? lifecycleDir),
       ("timeout_secs", Value.ofWord? timeoutSecs)]
  | .waitTelemetry taskRun target logPath timeoutSecs =>
    .object
      [cmd, ("task_run_id", .string taskRun), ("until", .string target.word),
       ("log_path", Value.ofString? logPath), ("timeout_secs", Value.ofWord? timeoutSecs)]
  | .tailTelemetry taskRun logPath untilFinish =>
    .object
      [cmd, ("task_run_id", .string taskRun), ("log_path", Value.ofString? logPath),
       ("until_finish", .bool untilFinish)]
  | .registerToken user token bundle environment =>
    .object
      [cmd, ("user", .string user), ("token", .string token), ("bundle_id", .string bundle),
       ("environment", environment.toJson)]
  | .notify user title body data =>
    .object
      [cmd, ("user", .string user), ("title", .string title), ("body", .string body),
       ("data", .array (data.map fun (key, value) => .array [.string key, .string value]))]
  | .notifyRun user taskRun outcome title error =>
    .object
      [cmd, ("user", .string user), ("task_run_id", .string taskRun),
       ("outcome", .string outcome.word), ("title", Value.ofString? title),
       ("error", Value.ofString? error)]

end Runwatch.Cli
