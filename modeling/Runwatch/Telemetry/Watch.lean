/-
Runwatch.Telemetry.Watch — what a change in a directory means.

A directory reports its changes with the paths they touch. A path arrives
when it is created, or when something is renamed to it; the source of a
rename does not arrive.

`reported` says which directory reports an edit and how; `openWatch` whether
a directory can be watched.
-/
import Runwatch.Files.Edit
import Runwatch.Telemetry.Error

namespace Runwatch.Telemetry

open Files (Edit)

/-! ## Changes -/

/-- The kinds of changes as far as they differ here. -/
inductive ChangeKind where
  | created
  /-- The source of a rename. -/
  | renamedFrom
  /-- Both sides of a rename, the source first. -/
  | renamedBoth
  /-- The target of a rename, or a rename that does not say. -/
  | renamedTo
  /-- A modification, access or removal. -/
  | touched
  deriving DecidableEq, Repr

/-- A change in a directory. -/
structure Change where
  kind : ChangeKind
  paths : List String
  deriving DecidableEq, Repr

/-- The paths that came into being with a change. -/
def Change.arrived (c : Change) : List String :=
  match c.kind with
  | .created => c.paths
  | .renamedFrom => []
  | .renamedBoth => c.paths.drop 1
  | .renamedTo => c.paths
  | .touched => []

/-- Whether a path's last component is `name`. -/
def hasFileName (path name : String) : Bool := Files.fileName? path == some name

/-- Whether a change touches a file called `name`. -/
def Change.touches (c : Change) (name : String) : Bool := c.paths.any (hasFileName · name)

/-- Whether a file called `name` arrives with a change. -/
def Change.brings (c : Change) (name : String) : Bool := c.arrived.any (hasFileName · name)

/-! ## Edits -/

/-- A change, with the names from the root to the directory that reports
it. -/
abbrev Reported := List String × Change

/-- A change of what a path leads to. -/
def changeAt (t : Files.Tree) (kind : ChangeKind) (path : String) : List Reported :=
  match t.locate path with
  | .ok names => [(names.dropLast, ⟨kind, [path]⟩)]
  | .error _ => []

/-- What is reported of an edit that leads from one tree to another. -/
def reported (before after : Files.Tree) (e : Edit) : List Reported :=
  match e with
  | .write path _ | .append path _ =>
    changeAt after (if before.has path then .touched else .created) path
  | .setLength path _ | .delete path => changeAt after .touched path
  | .makeDirs path =>
    (Files.missingDirs (path.length + 1) before path).flatMap (changeAt after .created)
  | .rename path target => changeAt after .renamedFrom path ++ changeAt after .renamedTo target

/-! ## Watches -/

/-- A path from the root. -/
def fromRoot (t : Files.Tree) (path : String) : String :=
  Files.join ("/" ++ String.intercalate "/" t.cwd) path

/-- Whether a directory can be watched. -/
def openWatch (t : Files.Tree) (directory : String) : Except WatchFault Unit :=
  match t.find directory with
  | .ok _ => .ok ()
  | .error fault => .error (.ofFault fault (fromRoot t directory))

end Runwatch.Telemetry
