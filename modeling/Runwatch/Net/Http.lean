/-
Runwatch.Net.Http — building requests over HTTP.

A request is built from an address, headers and a body. A user name in the
address becomes a header. Why none is built is told with the address, where
that could be read.
-/
import Runwatch.Net.Url
import Runwatch.Text.Base64

namespace Runwatch.Net

/-- A request. -/
structure HttpRequest where
  method : String
  url : Url
  headers : List (String × String)
  body : String
  deriving DecidableEq, Repr

/-- Why a request is not built. -/
inductive BuildError where
  /-- The text is no address. -/
  | noAddress
  /-- The address names no host. -/
  | noHost (url : Url)
  /-- The value of a header holds a control. -/
  | noHeader
  deriving DecidableEq, Repr

/-- The wording of a `BuildError`. -/
def BuildError.message : BuildError → String
  | .noHost url => "builder error for url (" ++ url.text ++ ")"
  | _ => "builder error"

/-- A character that the value of a header may hold. -/
def isHeaderChar (c : Char) : Bool := c == '\t' || (0x20 ≤ c.toNat && c.toNat != 0x7F)

/-- The user name and the password of an address, read back. -/
def Url.user? (u : Url) : Option (String × Option String) :=
  if u.username.isEmpty && u.password.isNone then none
  else do
    let name ← Text.Utf8.text? (percentDecode u.username.toList)
    some (name, u.password.bind fun p => Text.Utf8.text? (percentDecode p.toList))

/-- The header that a user name and a password are. -/
def basicHeader (name : String) (password : Option String) : String × String :=
  let credentials := Text.Utf8.bytes (name ++ ":" ++ password.getD "")
  ("authorization", "Basic " ++ String.ofList (Text.Base64.encode Text.Base64.standard credentials))

/-- The address without user name and password, and the header they are. -/
def Url.withoutUser (u : Url) : Url × List (String × String) :=
  match u.user? with
  | some (name, password) => ({ u with username := "", password := none }, [basicHeader name password])
  | none => (u, [])

/-- Builds a request that posts a body. -/
def HttpRequest.post (address : String) (headers : List (String × String)) (body : String) :
    Except BuildError HttpRequest :=
  match Url.parse address with
  | none => .error .noAddress
  | some url =>
    if !url.hasHost then .error (.noHost url)
    else if !headers.all (fun h => h.2.toList.all isHeaderChar) then .error .noHeader
    else
      let (url, own) := url.withoutUser
      .ok ⟨"POST", url, own ++ headers, body⟩

end Runwatch.Net
