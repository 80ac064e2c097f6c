/-
Runwatch.Files.Path — file system paths as texts.

A path is a text of components between slashes. Empty components and `.`
mean nothing unless the path begins with `.`; a path that begins with a
slash starts at the root.
-/

namespace Runwatch.Files

/-- Whether a path starts at the root. -/
def isAbsolute (path : String) : Bool := path.toList.head? == some '/'

/-- `name` below `base`; an absolute name stands for itself. -/
def join (base name : String) : String :=
  if isAbsolute name || base.isEmpty then name
  else if base.toList.getLast? == some '/' then base ++ name
  else base ++ "/" ++ name

/-- One step of a path. -/
inductive Component where
  | root
  | here
  | up
  | name (s : String)
  deriving DecidableEq, Repr

/-- The component that a piece of a path writes, if it writes one. -/
def Component.ofPiece? (piece : List Char) : Option Component :=
  if piece == [] || piece == ['.'] then none
  else if piece == ['.', '.'] then some .up
  else some (.name (String.ofList piece))

/-- The components of a path. -/
def components (path : String) : List Component :=
  let ps := path.toList.splitOn '/'
  let steps := ps.filterMap Component.ofPiece?
  if isAbsolute path then .root :: steps
  else if ps.head? == some ['.'] then .here :: steps
  else steps

/-- The last component, if it is a name. -/
def fileName? (path : String) : Option String :=
  match (components path).getLast? with
  | some (.name s) => some s
  | _ => none

/-- `cs` without what follows its last piece that counts: slashes at the end
and pieces that are empty or `.`; `cs` is reversed. -/
def dropTrail : Nat → List Char → List Char
  | 0, cs => cs
  | fuel + 1, cs =>
    match cs with
    | '/' :: rest => if rest.isEmpty then cs else dropTrail fuel rest
    | ['.'] => cs
    | '.' :: '/' :: rest => dropTrail fuel ('/' :: rest)
    | cs => cs

/-- The path without its last component, if it has one besides the root. -/
def parent? (path : String) : Option String :=
  match (components path).getLast? with
  | none => none
  | some .root => none
  | some _ =>
    let trimmed := dropTrail path.length path.toList.reverse
    let above := trimmed.dropWhile (· != '/')
    some (String.ofList (dropTrail path.length above).reverse)

/-- A path with the paths above it, the outermost first. `depth` bounds how
many. -/
def withAncestors : Nat → String → List String
  | 0, path => [path]
  | depth + 1, path =>
    match parent? path with
    | none => [path]
    | some above => if above.isEmpty then [path] else withAncestors depth above ++ [path]

end Runwatch.Files
