import Bindery.CommandLine.Run
import Bindery.FileTree.Edit

/-!
# The program

The command line on a disk. The parts of the disk that a command can read or write are taken into
a tree, the command runs on the tree, and what it changed there is written back. Nothing is
decided here.
-/

namespace Bindery.Disk

/-- The location of a place on the disk, in writing. -/
def absolute (place : Location) : String := "/" ++ "/".intercalate place

/-- What is on the disk at a location, with the content of a file if it is wanted. -/
def node? (place : Location) (wanted : Bool) : IO (Option Node) := do
  let p := (← IO.currentDir) / absolute place
  if ← p.isDir then return some .directory
  if !(← p.pathExists) then return none
  if !wanted then return some (.file [])
  return some (.file (← IO.FS.readBinFile p).toList)

/-- The tree with what is on the disk at a location. -/
def take (t : FileTree) (place : Location) (wanted : Bool) : IO FileTree := do
  if place.isEmpty then return t
  match ← node? place wanted with
  | some node => return t.set place node
  | none => return t

/-- The tree with what is on the disk at a path and around it, wherever its components lead. -/
def takePath (t : FileTree) (p : Path) : IO FileTree := do
  let mut t := t
  let mut place := t.start p
  for part in p.parts do
    t ← take t place false
    place := if part = ".." then place.dropLast else place ++ [part]
  take t place true

/-- The tree with all that is on the disk below a location; of files, only sources are read. -/
partial def takeBelow (suffix : String) (t : FileTree) (place : Location) : IO FileTree := do
  let p := (← IO.currentDir) / absolute place
  if !(← p.isDir) then return t
  let mut t := t
  for entry in ← p.readDir do
    let below := place ++ [entry.fileName]
    t ← take t below (Scan.isSource suffix below)
    t ← takeBelow suffix t below
  return t

/-- The parts of the disk that a generation can read or write. -/
def takeAll (s : Settings) : IO FileTree := do
  let place := Path.partsOf (toString (← IO.currentDir)).toList
  let mut t : FileTree := .standingAt place
  for p in [s.sources, s.events, s.header, s.docs] do
    t ← takePath t p
  match t.locate s.sources with
  | .ok below => takeBelow s.suffix t below
  | .error _ => return t

/-- Writing to the disk what a tree has and an earlier one has not. -/
def putBack (before after : FileTree) : IO Unit := do
  for (place, node) in after.nodes do
    if before.node? place ≠ some node then
      let p := (← IO.currentDir) / absolute place
      match node with
      | .directory => IO.FS.createDirAll p
      | .file content => IO.FS.writeBinFile p (ByteArray.mk content.toArray)

/-- The environment of the process. -/
def environment : IO Environment := do
  let mut pairs : List (String × String) := []
  for name in Environment.names do
    match ← IO.getEnv name with
    | some value => pairs := (name, value) :: pairs
    | none => pure ()
  return .ofVariables pairs

/-- The tree that a command line needs. -/
def treeFor (e : Environment) (texts : List String) : IO FileTree :=
  match CommandLine.invocation texts with
  | .error _ | .ok (.version, _) => return .standingAt []
  | .ok (command, choices) => takeAll (CommandLine.settingsOf e command choices)

/-- Runs one command line on the disk and gives its exit code. -/
def run (texts : List String) : IO UInt32 := do
  let e ← environment
  let before ← treeFor e texts
  let (after, exit) := CommandLine.run e before texts
  putBack before after
  (← IO.getStderr).putStr exit.errors
  (← IO.getStdout).putStr exit.output
  match exit.code with
  | .ok code => return UInt32.ofNat code
  | .error failure => throw (IO.userError failure.message)

end Bindery.Disk

/-- The entry of the program. -/
def main (texts : List String) : IO UInt32 := Bindery.Disk.run texts
