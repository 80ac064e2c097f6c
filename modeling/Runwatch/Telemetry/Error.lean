/-
Runwatch.Telemetry.Error — why waiting for a signal failed.
-/
import Runwatch.Files.Fault
import Runwatch.Text.Quoted

namespace Runwatch.Telemetry

/-- What a directory watch reports when it cannot be set up: the cause and
the paths it is about. -/
structure WatchFault where
  cause : String
  paths : List String
  deriving DecidableEq, Repr

/-- A fault of the file system about one path. -/
def WatchFault.ofFault (fault : Files.Fault) (path : String) : WatchFault := ⟨fault.message, [path]⟩

/-- The wording of a `WatchFault`. -/
def WatchFault.message (f : WatchFault) : String :=
  if f.paths.isEmpty then f.cause
  else f.cause ++ " about [" ++ String.intercalate ", " (f.paths.map Text.quoted) ++ "]"

/-- Why a detector gives no event. -/
inductive DetectError where
  /-- The directory cannot be watched. -/
  | watch (path : String) (fault : WatchFault)
  /-- The log cannot be read. -/
  | read (path : String) (fault : Files.Fault)
  /-- The detector was stopped. -/
  | stopped
  /-- The detector was started before. -/
  | alreadyStarted (path : String)
  deriving DecidableEq, Repr

/-- The word for the kind of a `DetectError`. -/
def DetectError.kind : DetectError → String
  | .watch _ _ => "Watch"
  | .read _ _ => "Read"
  | .stopped => "Stopped"
  | .alreadyStarted _ => "AlreadyStarted"

/-- What failed with a path, without the cause. -/
def DetectError.subject : DetectError → String
  | .watch path _ => "failed to watch " ++ path
  | .read path _ => "failed to read telemetry log " ++ path
  | .stopped => "detector stopped before a completion signal arrived"
  | .alreadyStarted path => "detector already started for " ++ path

/-- The wording of a `DetectError`. -/
def DetectError.message (e : DetectError) : String :=
  match e with
  | .watch _ fault => e.subject ++ ": " ++ fault.message
  | .read _ fault => e.subject ++ ": " ++ fault.message
  | _ => e.subject

end Runwatch.Telemetry
