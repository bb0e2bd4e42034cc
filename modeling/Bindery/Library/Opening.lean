import Bindery.FileTree.Basic
import Bindery.Library.Function
import Bindery.Library.Image

/-!
# Opening a shared library

Whether the file at a path opens as a shared library. A path without a slash is not looked for
here, even if there is such a file. Which files are libraries, and what they export, is given
beside the tree. A library is opened for the sake of some names, and has a function for each of
them that it exports.
-/

namespace Bindery.Library

/-- Why a library does not open. -/
inductive OpenFault
  | missing (path : Path)
  | notSearched (path : Path)
  | directory (path : Path)
  | image (path : Path) (fault : ImageFault)
  deriving DecidableEq, Repr

/-- The text of a fault. -/
def OpenFault.message : OpenFault → String
  | .missing path => "shared library not found: " ++ path.text
  | .notSearched path =>
    path.text ++ ": cannot open shared object file: " ++ FileCause.text .notFound
  | .directory path => path.text ++ ": cannot read file data: " ++ FileCause.text .isDirectory
  | .image path fault => path.text ++ ": " ++ fault.message

/-- The shared libraries of a tree: at which locations they lie, and what they export. -/
abbrev Images := List (Location × List String)

/-- What the library at a path exports, if it opens. -/
def openImage (t : FileTree) (images : Images) (p : Path) : Except OpenFault (List String) :=
  match t.locate p, t.find p with
  | .ok place, .ok node =>
    if !p.text.toList.contains '/' then .error (.notSearched p)
    else
      match node, Keyed.get? place images with
      | .directory, _ => .error (.directory p)
      | .file _, some symbols => .ok symbols
      | .file content, none => .error (.image p (Image.fault content))
  | _, _ => .error (.missing p)

/-- The symbol that is looked for under a name: the part in front of the first null character. -/
def symbolOf (name : String) : String := String.ofList (name.toList.takeWhile (· ≠ '\x00'))

/-- Opening a library for the sake of some names. Each opening gives functions of its own, and
names that lead to one symbol have a function each. -/
def openFile (t : FileTree) (images : Images) (store : Store) (p : Path) (names : List String) :
    Except OpenFault Opened × Store :=
  match openImage t images p with
  | .error f => (.error f, store)
  | .ok symbols =>
    let (l, store) :=
      Opened.ofSymbols false store (names.filter fun name => symbols.contains (symbolOf name))
    (.ok l, store)

end Bindery.Library
