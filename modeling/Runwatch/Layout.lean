/-
Runwatch.Layout — where a task run leaves its traces.

A run that has ended leaves a marker file in the lifecycle directory; while
it works, it appends to a telemetry log in the telemetry directory. Both
names are made from the name of the run.
-/
import Runwatch.Files.Path
import Runwatch.Token.Record

namespace Runwatch

open Json (Decoder Dialect Value field record)

/-- The directories of markers and of telemetry logs. -/
structure Layout where
  lifecycleDir : String
  telemetryDir : String
  deriving DecidableEq, Repr

/-- The name of a run's marker file. -/
def markerFileName (id : TaskRunId) : String := "minimax-complete-" ++ id.text

/-- The name of a run's telemetry log. -/
def telemetryLogName (id : TaskRunId) : String := "gemini-telemetry-" ++ id.text ++ ".log"

namespace Layout

/-- The directories used where none are set. -/
def standard : Layout := ⟨"/root/lifecycle", "/tmp"⟩

/-- The path of a run's marker file. -/
def markerPath (l : Layout) (id : TaskRunId) : String :=
  Files.join l.lifecycleDir (markerFileName id)

/-- The path of a run's telemetry log. -/
def telemetryLogPath (l : Layout) (id : TaskRunId) : String :=
  Files.join l.telemetryDir (telemetryLogName id)

/-- A layout as a JSON value. -/
def toJson (l : Layout) : Value :=
  .object [("lifecycle_dir", .string l.lifecycleDir), ("telemetry_dir", .string l.telemetryDir)]

/-- Reads a layout; a directory that is not set is the standard one. -/
def decode (dialect : Dialect) : Decoder Layout :=
  record dialect "LifecycleLayout"
    [field "lifecycle_dir" Decoder.path, field "telemetry_dir" Decoder.path]
    fun s => do
      pure
        { lifecycleDir := ← s.defaulted 0 "lifecycle_dir" Decoder.path standard.lifecycleDir
          telemetryDir := ← s.defaulted 1 "telemetry_dir" Decoder.path standard.telemetryDir }

end Layout

end Runwatch
