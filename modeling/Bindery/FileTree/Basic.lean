import Bindery.FileTree.Path
import Bindery.Keyed
import Bindery.Text.Quoted

/-!
# File trees

A tree of directories and files as a table from locations to what is there. A location is the list
of names from the top. Following a path goes one component at a time and needs a directory at each
step, so that a step back from something that is missing, or is a file, fails.
-/

namespace Bindery

/-- The names from the top to a place in the tree. -/
abbrev Location := List String

/-- What is at a location. -/
inductive Node
  | file (content : List UInt8)
  | directory
  deriving DecidableEq, Repr

/-- Why a file operation fails. -/
inductive FileCause
  | notFound
  | alreadyExists
  | notDirectory
  | isDirectory
  | nullCharacter
  deriving DecidableEq, Repr

/-- The number of a cause for which the system refuses an operation. A path with a null character
does not get as far as that. -/
def FileCause.number? : FileCause → Option Nat
  | .notFound => some 2
  | .alreadyExists => some 17
  | .notDirectory => some 20
  | .isDirectory => some 21
  | .nullCharacter => none

/-- The text of a cause. -/
def FileCause.text : FileCause → String
  | .notFound => "No such file or directory"
  | .alreadyExists => "File exists"
  | .notDirectory => "Not a directory"
  | .isDirectory => "Is a directory"
  | .nullCharacter => "embedded null byte"

/-- A failed file operation. -/
structure FileFault where
  /-- Why it failed. -/
  cause : FileCause
  /-- The path that was asked for. -/
  path : Path
  deriving DecidableEq, Repr

/-- Whether the system refused the operation. -/
def FileFault.isRefusal (f : FileFault) : Bool := f.cause.number?.isSome

/-- The text of a failure. -/
def FileFault.message (f : FileFault) : String :=
  match f.cause.number? with
  | some n => "[Errno " ++ toString n ++ "] " ++ f.cause.text ++ ": " ++ Text.quoted f.path.text
  | none => f.cause.text

/-- The text of a failure in the course of an activity. Only a refusal counts as a failure of the
activity itself. -/
def FileFault.during (activity : String) (f : FileFault) : String :=
  if f.isRefusal then activity ++ ": " ++ f.message else f.message

/-- A tree of directories and files, and the directory in which the reader stands. -/
structure FileTree where
  /-- What is at each location but the top, which is always a directory. -/
  nodes : List (Location × Node)
  /-- Where the reader stands. -/
  workingDirectory : Location
  deriving DecidableEq, Repr

namespace FileTree

/-- What is at a location. -/
def node? (t : FileTree) (place : Location) : Option Node :=
  if place.isEmpty then some .directory else Keyed.get? place t.nodes

/-- The content of the file at a location. -/
def fileAt? (t : FileTree) (place : Location) : Option (List UInt8) :=
  match t.node? place with
  | some (.file content) => some content
  | _ => none

/-- The location that components lead to. What is asked to be there last need not exist. -/
def follow (t : FileTree) (place : Location) : List String → Except FileCause Location
  | [] => .ok place
  | part :: parts =>
    match t.node? place with
    | none => .error .notFound
    | some (.file _) => .error .notDirectory
    | some .directory => t.follow (if part = ".." then place.dropLast else place ++ [part]) parts

/-- The location that a path starts from. -/
def start (t : FileTree) (p : Path) : Location :=
  match p.anchor with
  | .here => t.workingDirectory
  | _ => []

/-- The location of a path. -/
def locate (t : FileTree) (p : Path) : Except FileCause Location :=
  if p.hasNull then .error .nullCharacter else t.follow (t.start p) p.parts

/-- What a path leads to. -/
def find (t : FileTree) (p : Path) : Except FileCause Node :=
  match t.locate p with
  | .error e => .error e
  | .ok place =>
    match t.node? place with
    | none => .error .notFound
    | some node => .ok node

/-- Whether a path leads to anything. -/
def has (t : FileTree) (p : Path) : Bool := (t.find p).isOk

/-- Whether a path leads to a directory. -/
def isDirectory (t : FileTree) (p : Path) : Bool :=
  match t.find p with
  | .ok .directory => true
  | _ => false

/-- The content of the file that a path leads to. -/
def read (t : FileTree) (p : Path) : Except FileFault (List UInt8) :=
  match t.find p with
  | .error e => .error ⟨e, p⟩
  | .ok .directory => .error ⟨.isDirectory, p⟩
  | .ok (.file content) => .ok content

/-- The tree with something put at a location. -/
def set (t : FileTree) (place : Location) (node : Node) : FileTree :=
  { t with nodes := Keyed.put place node t.nodes }

/-- Writing a whole file, which may be new; its directory has to be there. -/
def write (t : FileTree) (p : Path) (content : List UInt8) : Except FileFault FileTree :=
  match t.locate p with
  | .error e => .error ⟨e, p⟩
  | .ok place =>
    match t.node? place, t.node? place.dropLast with
    | some .directory, _ => .error ⟨.isDirectory, p⟩
    | some (.file _), _ => .ok (t.set place (.file content))
    | none, some .directory => .ok (t.set place (.file content))
    | none, some (.file _) => .error ⟨.notDirectory, p⟩
    | none, none => .error ⟨.notFound, p⟩

/-- Making one directory; the directory around it has to be there. -/
def makeDirectory (t : FileTree) (p : Path) : Except FileCause FileTree :=
  match t.locate p with
  | .error e => .error e
  | .ok place =>
    match t.node? place, t.node? place.dropLast with
    | some _, _ => .error .alreadyExists
    | none, some .directory => .ok (t.set place .directory)
    | none, some (.file _) => .error .notDirectory
    | none, none => .error .notFound

/-- A directory that was asked for and could not be made is no failure if it is there. -/
def acceptDirectory (t : FileTree) (p : Path) (e : FileCause) : FileTree × Except FileFault Unit :=
  (t, if t.isDirectory p then .ok () else .error ⟨e, p⟩)

/-- Making a directory and those around it, as far as they are missing. What was made stays also
if a later one fails. -/
def makeDirectories (t : FileTree) (p : Path) : FileTree × Except FileFault Unit :=
  match t.makeDirectory p with
  | .ok made => (made, .ok ())
  | .error .notFound =>
    if p.parts.isEmpty then (t, .error ⟨.notFound, p⟩)
    else
      match t.makeDirectories p.parent with
      | (around, .error f) => (around, .error f)
      | (around, .ok ()) =>
        match around.makeDirectory p with
        | .ok made => (made, .ok ())
        | .error e => around.acceptDirectory p e
  | .error e => t.acceptDirectory p e
termination_by p.parts.length
decreasing_by
  rename_i h
  simp only [Path.parent, List.length_dropLast]
  cases hp : p.parts with
  | nil => simp [hp] at h
  | cons part parts => simp

/-- Writing a whole file after making the directories around it. -/
def writeBelow (t : FileTree) (p : Path) (content : List UInt8) :
    FileTree × Except FileFault Unit :=
  match t.makeDirectories p.parent with
  | (made, .error f) => (made, .error f)
  | (made, .ok ()) =>
    match made.write p content with
    | .error f => (made, .error f)
    | .ok written => (written, .ok ())

/-- The names from one location to another below it. -/
def relative? (root : Location) (place : Location) : Option Location :=
  match root, place with
  | [], names => some names
  | _ :: _, [] => none
  | r :: root, n :: place => if r = n then relative? root place else none

/-- The files below a location, with the names that lead to them from there. -/
def filesBelow (t : FileTree) (root : Location) : List (Location × List UInt8) :=
  t.nodes.filterMap fun (place, node) =>
    match relative? root place, node with
    | some (name :: names), .file content => some (name :: names, content)
    | _, _ => none

end FileTree

end Bindery
