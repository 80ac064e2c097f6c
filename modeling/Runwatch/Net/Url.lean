/-
Runwatch.Net.Url — addresses of resources.

`Url.parse` reads a text as browsers do: it drops controls and blanks at
the ends and line ends within, writes the scheme and the host in one way,
resolves the segments `.` and `..` of a path, leaves out the port that the
scheme implies, and writes as percent signs and digits what a part cannot
hold. `Url.text` is the text of an address.
-/
import Runwatch.Net.Host

namespace Runwatch.Net

/-- What follows the host. -/
inductive UrlPath where
  /-- Segments, each after a slash. -/
  | segments (names : List String)
  /-- A text that is no list of segments. -/
  | whole (text : String)
  deriving DecidableEq, Repr

/-- An address; user name, password, path, query and fragment as they are
written. A host may be empty, and a host that is absent leaves out the two
slashes. -/
structure Url where
  scheme : String
  username : String
  password : Option String
  host : Option Host
  port : Option Nat
  path : UrlPath
  query : Option String
  fragment : Option String
  deriving DecidableEq, Repr

/-- The port that a scheme implies. -/
def impliedPort? (scheme : String) : Option Nat :=
  [("http", 80), ("https", 443), ("ws", 80), ("wss", 443), ("ftp", 21)].lookup scheme

/-- Whether a scheme is one of the web. -/
def isWebScheme (scheme : String) : Bool := (impliedPort? scheme).isSome || scheme == "file"

/-! ## Writing -/

/-- The text of a path. -/
def UrlPath.text : UrlPath → String
  | .segments names => String.join (names.map ("/" ++ ·))
  | .whole text => text

namespace Url

/-- User name and password in front of a host. -/
def userText (u : Url) : String :=
  if u.username.isEmpty && u.password.isNone then ""
  else u.username ++ ((u.password.map (":" ++ ·)).getD "") ++ "@"

/-- The text between the scheme and the path. -/
def authorityText (u : Url) : String :=
  match u.host with
  | some h =>
    "//" ++ u.userText ++ h.text ++ ((u.port.map fun p => ":" ++ Text.decimal p).getD "")
  | none => match u.path with
    | .segments ("" :: _ :: _) => "/."
    | _ => ""

/-- The text of an address. -/
def text (u : Url) : String :=
  u.scheme ++ ":" ++ u.authorityText ++ u.path.text ++ ((u.query.map ("?" ++ ·)).getD "")
    ++ ((u.fragment.map ("#" ++ ·)).getD "")

/-- Whether an address names a host. -/
def hasHost (u : Url) : Bool :=
  match u.host with
  | some (.name "") => false
  | some _ => true
  | none => false

end Url

/-! ## Reading -/

/-- A control or a space, as an address drops it at its ends. -/
def isEndBlank (c : Char) : Bool := c.toNat ≤ 0x20

/-- The characters of an address that count. -/
def countedChars (s : String) : List Char :=
  let cs := s.toList.dropWhile isEndBlank
  let cs := (cs.reverse.dropWhile isEndBlank).reverse
  cs.filter fun c => c != '\t' && c != '\n' && c != '\r'

/-- A letter of ASCII. -/
def isLetter (c : Char) : Bool := ('a' ≤ c && c ≤ 'z') || ('A' ≤ c && c ≤ 'Z')

/-- Reads a scheme and its colon. -/
def readScheme? (cs : List Char) : Option (String × List Char) :=
  let isPart (c : Char) : Bool :=
    isLetter c || Text.isDigit c || c == '+' || c == '-' || c == '.'
  match cs.head?, cs.dropWhile isPart with
  | some c, ':' :: rest =>
    if isLetter c then some (String.ofList ((cs.takeWhile isPart).map Char.toLower), rest) else none
  | _, _ => none

/-- What separates a path from what follows it. -/
def endsPath (c : Char) : Bool := c == '?' || c == '#'

/-- A segment that stands for its parent. -/
def isParent (segment : List Char) : Bool :=
  ["..", ".%2e", "%2e.", "%2e%2e"].contains (String.ofList (segment.map Char.toLower))

/-- A segment that stands for itself. -/
def isSelf (segment : List Char) : Bool :=
  [".", "%2e"].contains (String.ofList (segment.map Char.toLower))

/-- Resolves segments on top of those already resolved, last first. -/
def resolve (done : List String) : List (List Char) → List String
  | [] => done.reverse
  | segment :: rest =>
    let isLast := rest.isEmpty
    if isParent segment then resolve (if isLast then "" :: done.drop 1 else done.drop 1) rest
    else if isSelf segment then resolve (if isLast then "" :: done else done) rest
    else resolve (String.ofList (percentEncode pathSet segment) :: done) rest

/-- The segments of a path; with a scheme of the web a backslash parts them
too, and there is at least one. -/
def segmentsOf (web : Bool) (cs : List Char) : List String :=
  let cs := if web then cs.map fun c => if c == '\\' then '/' else c else cs
  if cs.isEmpty && !web then []
  else resolve [] ((if cs.head? == some '/' then cs.drop 1 else cs).splitOn '/')

/-- The address with the query and the fragment that a rest holds. -/
def withTail (web : Bool) (u : Url) (cs : List Char) : Url :=
  let fragment (rest : List Char) : Option String :=
    match rest with
    | '#' :: f => some (String.ofList (percentEncode fragmentSet f))
    | _ => none
  match cs with
  | '?' :: rest =>
    let query := rest.takeWhile (· != '#')
    { u with
      query := some (String.ofList (percentEncode (querySet web) query))
      fragment := fragment (rest.drop query.length) }
  | rest => { u with fragment := fragment rest }

/-- The address with the path and what follows it. -/
def withPath (web : Bool) (u : Url) (cs : List Char) : Url :=
  let path := cs.takeWhile (!endsPath ·)
  withTail web { u with path := .segments (segmentsOf web path) } (cs.drop path.length)

/-- Splits what stands before the last `@`. -/
def splitUser (authority : List Char) : Option (List Char) × List Char :=
  let host := (authority.reverse.takeWhile (· != '@')).reverse
  if host.length == authority.length then (none, host)
  else (some (authority.take (authority.length - host.length - 1)), host)

/-- The length of a host: up to a colon that is in no brackets. -/
def hostLength (inside : Bool) : List Char → Nat
  | [] => 0
  | c :: rest =>
    if c == ':' && !inside then 0
    else hostLength (if c == '[' then true else if c == ']' then false else inside) rest + 1

/-- Reads a port up to the end; a number that fits, or none at all. -/
def port? (scheme : String) (cs : List Char) : Option (Option Nat) :=
  match cs with
  | [] => some none
  | cs => do
    let n ← Text.natOfDigits? cs
    if 65535 < n then none else some (if impliedPort? scheme == some n then none else some n)

/-- Reads an address from its user name on. -/
def readAuthority? (scheme : String) (cs : List Char) : Option Url := do
  let web := isWebScheme scheme
  let ends (c : Char) : Bool := c == '/' || endsPath c || (web && c == '\\')
  let authority := cs.takeWhile (!ends ·)
  let rest := cs.drop authority.length
  let (user, hostPort) := splitUser authority
  let user := user.getD []
  let name := user.takeWhile (· != ':')
  let password := user.drop (name.length + 1)
  let size := hostLength false hostPort
  let hostText := hostPort.take size
  let host ← if web then Host.ofWebText? hostText else Host.ofPlainText? hostText
  if hostText.isEmpty && (web || !authority.isEmpty) then none
  else
    let port ← port? scheme (hostPort.drop (size + 1))
    let encoded (cs : List Char) : String := String.ofList (percentEncode userSet cs)
    some (withPath web
      { scheme := scheme
        username := encoded name
        password := if password.isEmpty then none else some (encoded password)
        host := some host
        port := port
        path := .segments []
        query := none
        fragment := none } rest)

/-- An address of a scheme without anything else. -/
def bare (scheme : String) : Url :=
  ⟨scheme, "", none, none, none, .segments [], none, none⟩

/-- A slash of either direction. -/
def isAnySlash (c : Char) : Bool := c == '/' || c == '\\'

/-- A path of a file, which does not begin with empty segments. -/
def filePath : UrlPath → UrlPath
  | .segments names =>
    match names.dropWhile (·.isEmpty) with
    | [] => .segments [""]
    | names => .segments names
  | path => path

/-- Reads an address of a file, after its scheme. -/
def readFile? (cs : List Char) : Option Url := do
  let (host, rest) ← match cs with
    | a :: b :: rest =>
      if isAnySlash a && isAnySlash b then do
        let name := rest.takeWhile fun c => !(isAnySlash c || endsPath c)
        let host ← if name.isEmpty then some (.name "") else Host.ofWebText? name
        some (if host == .name "localhost" then .name "" else host, rest.drop name.length)
      else some (.name "", cs)
    | cs => some (.name "", cs)
  let u := withPath true { bare "file" with host := some host } rest
  some { u with path := filePath u.path }

/-- Reads an address of a scheme that is not of the web. -/
def readOther? (scheme : String) (cs : List Char) : Option Url :=
  match cs with
  | '/' :: '/' :: rest => readAuthority? scheme rest
  | '/' :: _ => some (withPath false (bare scheme) cs)
  | cs =>
    let path := cs.takeWhile (!endsPath ·)
    some (withTail false
      { bare scheme with path := .whole (String.ofList (percentEncode controlSet path)) }
      (cs.drop path.length))

/-- Reads an address. -/
def Url.parse (s : String) : Option Url := do
  let (scheme, rest) ← readScheme? (countedChars s)
  if scheme == "file" then readFile? rest
  else if isWebScheme scheme then readAuthority? scheme (rest.dropWhile isAnySlash)
  else readOther? scheme rest

end Runwatch.Net
