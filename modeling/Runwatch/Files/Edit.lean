/-
Runwatch.Files.Edit — what programs do to files.
-/
import Runwatch.Files.Tree

namespace Runwatch.Files

/-- One change of a tree. -/
inductive Edit where
  | write (path : String) (bytes : List UInt8)
  | append (path : String) (bytes : List UInt8)
  | setLength (path : String) (length : Nat)
  | delete (path : String)
  /-- Makes a directory with its parents. -/
  | makeDirs (path : String)
  | rename (path target : String)
  deriving DecidableEq, Repr

namespace Edit

/-- The path that an edit is about. -/
def path : Edit → String
  | .write path _ => path
  | .append path _ => path
  | .setLength path _ => path
  | .delete path => path
  | .makeDirs path => path
  | .rename path _ => path

/-- The tree after an edit. -/
def apply (t : Tree) : Edit → Except Fault Tree
  | .write path bytes => t.write path bytes
  | .append path bytes => t.append path bytes
  | .setLength path length => t.setLength path length
  | .delete path => t.delete path
  | .makeDirs path => t.makeAll path
  | .rename path target => t.rename path target

end Edit

/-- The directories that making one with its parents creates, the outermost
first. `depth` bounds how many. -/
def missingDirs : Nat → Tree → String → List String
  | 0, _, _ => []
  | depth + 1, t, path =>
    if t.has path then []
    else ((parent? path).map (missingDirs depth t)).getD [] ++ [path]

end Runwatch.Files
