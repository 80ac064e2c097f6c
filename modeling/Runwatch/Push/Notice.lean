/-
Runwatch.Push.Notice — telling a user how a task run ended.

The text of the notification is the title of the run, cut to a length that
a device shows, then the error of a failed run. Without either a fixed
sentence stands in. Blank texts count as absent.
-/
import Runwatch.Push.Payload
import Runwatch.Text.Blank
import Runwatch.Token.Record

namespace Runwatch.Push

open Json (Decoder Value field record jsonDialect)

/-- How a task run ended. -/
inductive RunOutcome where
  | completed
  | failed (error : Option String)
  deriving DecidableEq, Repr

/-- A task run that ended, and its owner. -/
structure RunNotice where
  taskRun : TaskRunId
  user : UserId
  outcome : RunOutcome
  deriving DecidableEq, Repr

/-- An outcome as a JSON value. -/
def RunOutcome.toJson : RunOutcome → Value
  | .completed => .object [("status", .string "completed")]
  | .failed error => .object [("status", .string "failed"), ("error", Value.ofString? error)]

/-- Reads an outcome. -/
def RunOutcome.ofJson : Decoder RunOutcome :=
  Json.tagged "RunOutcome" "status"
    [{ word := "completed", title := "Completed", fields := [], build := fun _ => .ok .completed },
     { word := "failed"
       title := "Failed"
       fields := [field "error" (Decoder.nullable Decoder.text)]
       build := fun s => do pure (.failed (← s.nullable 0 "error" Decoder.text)) }]

/-- A notice as a JSON value. -/
def RunNotice.toJson (n : RunNotice) : Value :=
  .object
    [("task_run_id", n.taskRun.toJson), ("user_id", n.user.toJson), ("outcome", n.outcome.toJson)]

/-- Reads a notice. -/
def RunNotice.ofJson : Decoder RunNotice :=
  record jsonDialect "TaskRunNotice"
    [field "task_run_id" TaskRunId.ofJson, field "user_id" UserId.ofJson,
     field "outcome" RunOutcome.ofJson]
    fun s => do
      pure
        { taskRun := ← s.required 0 "task_run_id" TaskRunId.ofJson
          user := ← s.required 1 "user_id" UserId.ofJson
          outcome := ← s.required 2 "outcome" RunOutcome.ofJson }

/-- The characters of a title that are shown. -/
def titleLimit : Nat := 120

/-- A title that is too long ends in an ellipsis at the limit. -/
def shortTitle (title : String) : String :=
  if title.length ≤ titleLimit then title
  else String.ofList (title.toList.take (titleLimit - 1) ++ ['…'])

/-- The first line of a notification. -/
def RunOutcome.headline : RunOutcome → String
  | .completed => "Task completed"
  | .failed _ => "Task failed"

/-- The word for an outcome in the data of a notification. -/
def RunOutcome.dataType : RunOutcome → String
  | .completed => "task_run_completed"
  | .failed _ => "task_run_failed"

/-- The body for an outcome; `summary` is the title as far as it is shown. -/
def RunOutcome.sentence (summary : Option String) : RunOutcome → String
  | .completed => summary.getD "Your task run has finished."
  | .failed error =>
    match summary, error.bind Text.nonBlank? with
    | some s, some e => s ++ ": " ++ e
    | some s, none => s
    | none, some e => e
    | none, none => "Your task run failed."

/-- The notification about a run that may have a title. -/
def RunNotice.payload (n : RunNotice) (title : Option String) : Payload :=
  let summary := (title.bind Text.nonBlank?).map shortTitle
  ((Payload.ofText n.outcome.headline (n.outcome.sentence summary)).withData "type"
    (.string n.outcome.dataType)).withData "taskRunId" (.string n.taskRun.text)

end Runwatch.Push
