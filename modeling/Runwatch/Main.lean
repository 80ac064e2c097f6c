/-
Runwatch.Main — the command line.

Files are looked at through a tree of what a command looks at: `snapshot`
takes it from the disk, and `writeBack` writes what a command has changed.
A session that waits is shown the disk again and again.
-/
import Runwatch.Cli.Session
import Std.Time.DateTime.Timestamp

namespace Runwatch.Main

open Files (Node)
open Cli (Invocation Session)

/-- What stands at a path of the disk; of a directory, which can be opened
but not read, not what it holds. -/
def look (path : String) : IO (Option Node) := do
  try
    return some (.file (← IO.FS.readBinFile path).toList)
  catch _ =>
    try
      let _ ← IO.FS.Handle.mk path .read
      return some .empty
    catch _ => return none

/-- The tree with what the disk has at a path and above it. -/
def shown (tree : Files.Tree) (path : String) : IO Files.Tree := do
  let mut tree := tree
  for p in Files.withAncestors path.length path do
    let found ← look p
    let keep := match found with
      | some (.dir _) => tree.hasDir p
      | _ => false
    if !keep then tree := (tree.put p found).toOption.getD tree
  return tree

/-- A tree with nothing but the working directory. -/
def bare : IO Files.Tree := do
  let names := ((← IO.currentDir).toString.splitOn "/").filter (!·.isEmpty)
  return ⟨Node.empty.set names (some .empty), names⟩

/-- What the disk has at some paths. -/
def snapshot (tree : Files.Tree) (paths : List String) : IO Files.Tree := paths.foldlM shown tree

/-- Writes a file if a command has changed it. -/
def writeBack (before after : Files.Tree) (path : String) : IO Unit := do
  match after.read path with
  | .error _ => return ()
  | .ok bytes =>
    if (before.read path).toOption != some bytes then
      match Files.parent? path with
      | some above => if !above.isEmpty then IO.FS.createDirAll above
      | none => pure ()
      IO.FS.writeBinFile path ⟨bytes.toArray⟩

/-- The time. -/
def now : IO Time.Instant := do
  let t ← Std.Time.Timestamp.now
  return ⟨t.val.second.val, t.val.nano.val.toNat⟩

/-- Prints the lines after the first `known`; gives how many there are. -/
def printFrom (known : Nat) (s : Session) : IO Nat := do
  for line in s.lines.drop known do
    IO.println line
  (← IO.getStdout).flush
  return s.lines.length

/-- The milliseconds between two looks at the disk. -/
def pause : UInt32 := 100

/-- Shows a session the disk until it is over; it has time until `deadline`. -/
partial def follow (deadline : Option Nat) (known : Nat) (s : Session) : IO Session := do
  let known ← printFrom known s
  match s.watched? with
  | none => return s
  | some path =>
    let late := deadline.any (· ≤ (← IO.monoMsNow))
    let tree ← snapshot s.tree [path]
    let s := { s with tree := tree }
    let s := if tree.has path then s.notice ⟨.created, [path]⟩ else s
    let s := s.readOn.attend
    let s := if late then s.expire else s
    unless s.isOver do IO.sleep pause
    follow deadline known s

/-- Carries an invocation out; gives the code to end with. -/
def carryOut (i : Invocation) : IO UInt32 := do
  let tree ← snapshot (← bare) [i.config]
  let tree ← snapshot tree (Session.pathsOf tree i)
  let found ← Credentials.variableNames.mapM fun name => do return (name, ← IO.getEnv name)
  let s := Session.start ⟨tree, fun name => (found.lookup name).join, ← now, fun _ => .lost⟩ i
  for path in Session.pathsOf tree i do
    writeBack tree s.tree path
  let start ← IO.monoMsNow
  let s ← follow (s.timeout.map fun secs => start + 1000 * secs.toNat) 0 s
  match s.failure? with
  | some line => IO.eprintln line
  | none => pure ()
  return UInt32.ofNat (s.exitCode?.getD 0)

end Runwatch.Main

/-- Reads the arguments and carries the command out. -/
def main (arguments : List String) : IO UInt32 := do
  match Runwatch.Cli.parse arguments with
  | .ok i => Runwatch.Main.carryOut i
  | .error e =>
    for line in e.lines do
      if e.isAnswer then IO.println line else IO.eprintln line
    return UInt32.ofNat e.exitCode
