import Bindery.FileTree.Basic

/-!
# Laying out and listing a tree

Changes to a tree that prepare it for a generation, and the list of all that is in it.
-/

namespace Bindery.FileTree

/-- Adding to the end of a file, which may be new, after making the directories around it. -/
def appendBelow (t : FileTree) (p : Path) (content : List UInt8) :
    FileTree × Except FileFault Unit :=
  match t.makeDirectories p.parent with
  | (around, .error f) => (around, .error f)
  | (around, .ok ()) => around.writeBelow p (((around.read p).toOption).getD [] ++ content)

/-- The tree without what is at a path and below it. -/
def remove (t : FileTree) (p : Path) : FileTree :=
  match t.locate p with
  | .error _ => t
  | .ok place =>
    { t with nodes := t.nodes.filter fun (other, _) => (relative? place other).isNone }

/-- Everything below a location, by the names that lead to it from there, a directory with a final
slash; in ascending order. -/
def listing (t : FileTree) (root : Location) : List String :=
  let texts := t.nodes.filterMap fun (place, node) =>
    match relative? root place, node with
    | none, _ | some [], _ => none
    | some names, .directory => some ("/".intercalate names ++ "/")
    | some names, .file _ => some ("/".intercalate names)
  texts.mergeSort fun a b => decide (a ≤ b)

/-- The tree of a reader who stands at some location, with nothing but the directories that lead
there. -/
def standingAt (place : Location) : FileTree :=
  ⟨(List.range place.length).map fun n => (place.take (n + 1), .directory), place⟩

end Bindery.FileTree
