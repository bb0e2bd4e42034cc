import Bindery.FileTree.Basic
import Mathlib.Data.List.Nodup

/-!
# Files below a location

The names below a location are what the location has to be continued with. The files below a
location are those of the tree, each one as often as it stands there.
-/

namespace Bindery.FileTree

/-- The names from one location to another continue the first to the second. -/
theorem relative?_eq_some_iff {root place names : Location} :
    relative? root place = some names ↔ place = root ++ names := by
  induction root generalizing place with
  | nil => simp [relative?]
  | cons r root ih =>
    cases place with
    | nil => simp [relative?]
    | cons n place =>
      by_cases h : r = n
      · simp [relative?, h, ih]
      · simp [relative?, h, Ne.symm h]

/-- What an entry of a tree gives for the files below a location. -/
def entryBelow? (root : Location) : Location × Node → Option (Location × List UInt8)
  | (place, node) =>
    match relative? root place, node with
    | some (name :: names), .file content => some (name :: names, content)
    | _, _ => none

/-- The files below a location are what the entries give. -/
theorem filesBelow_eq (t : FileTree) (root : Location) :
    t.filesBelow root = t.nodes.filterMap (entryBelow? root) := rfl

/-- An entry gives its own file, under the names that continue the location. -/
theorem entryBelow?_eq_some_iff {root names : Location} {entry : Location × Node}
    {content : List UInt8} :
    entryBelow? root entry = some (names, content) ↔
      entry = (root ++ names, .file content) ∧ names ≠ [] := by
  obtain ⟨place, node⟩ := entry
  rw [Prod.mk.injEq, ← relative?_eq_some_iff]
  unfold entryBelow?
  dsimp only
  cases relative? root place with
  | none => simp
  | some found =>
    cases found with
    | nil =>
      simp only [reduceCtorEq, false_iff]
      rintro ⟨⟨h, -⟩, hnames⟩
      exact hnames (Option.some.inj h).symm
    | cons name rest =>
      cases node with
      | directory => simp
      | file content' =>
        simp only [Option.some.injEq, Prod.mk.injEq, Node.file.injEq, iff_self_and]
        rintro ⟨rfl, -⟩
        exact List.cons_ne_nil name rest

/-- The files below a location are the files of the tree with names that continue it. -/
theorem mem_filesBelow_iff {t : FileTree} {root names : Location} {content : List UInt8} :
    (names, content) ∈ t.filesBelow root ↔
      (root ++ names, Node.file content) ∈ t.nodes ∧ names ≠ [] := by
  simp only [filesBelow_eq, List.mem_filterMap, entryBelow?_eq_some_iff, ← and_assoc,
    exists_and_right, exists_eq_right]

/-- No file stands below a location twice in a tree without repeated entries. -/
theorem nodup_filesBelow {t : FileTree} (h : t.nodes.Nodup) (root : Location) :
    (t.filesBelow root).Nodup := by
  rw [filesBelow_eq]
  refine h.filterMap ?_
  rintro entry entry' ⟨names, content⟩ hentry hentry'
  obtain ⟨rfl, -⟩ := entryBelow?_eq_some_iff.mp hentry
  obtain ⟨rfl, -⟩ := entryBelow?_eq_some_iff.mp hentry'
  rfl

end Bindery.FileTree
