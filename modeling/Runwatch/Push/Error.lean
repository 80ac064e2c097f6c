/-
Runwatch.Push.Error — why a notification was not sent.
-/
namespace Runwatch.Push

/-- Why a notification was not sent; the text says more. -/
inductive PushError where
  /-- The signing key cannot be read. -/
  | invalidKey (reason : String)
  /-- No provider token was signed. -/
  | signing (reason : String)
  /-- The payload has no wire form. -/
  | encode (reason : String)
  /-- The exchange with the service failed. -/
  | transport (reason : String)
  deriving DecidableEq, Repr

/-- The wording of a `PushError`. -/
def PushError.message : PushError → String
  | .invalidKey reason => "invalid apns signing key: " ++ reason
  | .signing reason => "failed to sign apns provider token: " ++ reason
  | .encode reason => "failed to encode apns payload: " ++ reason
  | .transport reason => "apns transport error: " ++ reason

end Runwatch.Push
