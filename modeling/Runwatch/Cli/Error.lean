/-
Runwatch.Cli.Error — why a command failed.
-/
import Runwatch.Config.File
import Runwatch.Store.Error
import Runwatch.Telemetry.Error

namespace Runwatch.Cli

/-- What a command waits for. -/
inductive Awaited where
  | marker
  | event
  deriving DecidableEq, Repr

/-- The wording of what is waited for. -/
def Awaited.words : Awaited → String
  | .marker => "completion marker"
  | .event => "telemetry event"

/-- Why a command failed. -/
inductive CommandError where
  | config (path : String) (cause : ConfigError)
  | detect (cause : Telemetry.DetectError)
  | store (cause : Store.StoreError)
  /-- Nothing came in the time allowed. -/
  | timeout (awaited : Awaited) (secs : UInt64)
  deriving Repr

/-- The wording of a `CommandError`. -/
def CommandError.message : CommandError → String
  | .config path cause => "failed to load config at " ++ path ++ ": " ++ cause.message
  | .detect cause => cause.message
  | .store cause => "token store error: " ++ cause.message
  | .timeout awaited secs =>
    "timed out after " ++ Text.decimal secs.toNat ++ "s waiting for " ++ awaited.words

end Runwatch.Cli
