import Bindery.Proofs.FileTree
import Bindery.Proofs.Keyed

/-!
# Where paths lead

A path leads to one place, whatever the tree holds. As long as directories stay, a path that leads
somewhere still leads there; and putting something at one place leaves all others.
-/

namespace Bindery.FileTree

/-- The place one component further: below a place, or around it. -/
def onward (place : Location) (part : String) : Location :=
  if part = ".." then place.dropLast else place ++ [part]

/-- Where a path leads, whether or not anything is there. -/
def destination (t : FileTree) (p : Path) : Location := p.parts.foldl onward (t.start p)

/-- The places to which a path and its beginnings lead. -/
def OnTheWay (t : FileTree) (p : Path) (place : Location) : Prop :=
  ∃ parts, parts <+: p.parts ∧ place = parts.foldl onward (t.start p)

variable {t u v : FileTree} {p : Path} {place target : Location} {parts : List String}
  {node : Node} {content : List UInt8}

/-- Following a component needs a directory. -/
theorem follow_cons_eq_ok_iff {part : String} :
    t.follow place (part :: parts) = .ok target ↔
      t.node? place = some .directory ∧ t.follow (onward place part) parts = .ok target := by
  rw [follow, onward]
  cases t.node? place with
  | none => simp
  | some node => cases node <;> simp

/-- What components are followed to does not depend on the tree. -/
theorem eq_foldl_of_follow (h : t.follow place parts = .ok target) :
    target = parts.foldl onward place := by
  induction parts generalizing place with
  | nil => exact (Except.ok.inj h).symm
  | cons part parts ih => exact ih (follow_cons_eq_ok_iff.mp h).2

/-- A path is located by following it, if it can name a place at all. -/
theorem locate_eq_ok_iff :
    t.locate p = .ok place ↔ p.hasNull = false ∧ t.follow (t.start p) p.parts = .ok place := by
  unfold locate
  cases p.hasNull <;> simp

/-- A path that is located is at its destination. -/
theorem eq_destination_of_locate (h : t.locate p = .ok place) : place = t.destination p :=
  eq_foldl_of_follow (locate_eq_ok_iff.mp h).2

/-- A path leads to a directory if it is located and its destination is one. -/
theorem isDirectory_iff : t.isDirectory p = true ↔
    t.locate p = .ok (t.destination p) ∧ t.node? (t.destination p) = some .directory := by
  unfold isDirectory find
  cases hplace : t.locate p with
  | error e => simp
  | ok place =>
    obtain rfl := eq_destination_of_locate hplace
    dsimp only
    cases hnode : t.node? (t.destination p) with
    | none => simp
    | some node => cases node <;> simp

/-- A path is read if it is located and its destination is a file. -/
theorem read_eq_ok_iff : t.read p = .ok content ↔
    t.locate p = .ok (t.destination p) ∧ t.node? (t.destination p) = some (.file content) := by
  unfold read find
  cases hplace : t.locate p with
  | error e => simp
  | ok place =>
    obtain rfl := eq_destination_of_locate hplace
    dsimp only
    cases hnode : t.node? (t.destination p) with
    | none => simp
    | some node => cases node <;> simp

/-- A tree has all directories of another, and the reader stands where he stood. -/
structure Retains (t u : FileTree) : Prop where
  /-- The reader has not moved. -/
  workingDirectory_eq : u.workingDirectory = t.workingDirectory
  /-- No directory is gone. -/
  directory : ∀ place, t.node? place = some .directory → u.node? place = some .directory

/-- A tree has its own directories. -/
theorem Retains.refl (t : FileTree) : t.Retains t := ⟨rfl, fun _ h => h⟩

/-- Directories that stay twice stay. -/
theorem Retains.trans (h : t.Retains u) (h' : u.Retains v) : t.Retains v :=
  ⟨h'.workingDirectory_eq.trans h.workingDirectory_eq,
    fun place hplace => h'.directory place (h.directory place hplace)⟩

/-- Paths start where they started. -/
theorem Retains.start_eq (h : t.Retains u) (p : Path) : u.start p = t.start p := by
  unfold start
  rw [h.workingDirectory_eq]

/-- Paths have the destinations that they had. -/
theorem Retains.destination_eq (h : t.Retains u) (p : Path) :
    u.destination p = t.destination p := by
  rw [destination, destination, h.start_eq]

/-- The places on the way to a path are the same. -/
theorem Retains.onTheWay_iff (h : t.Retains u) : u.OnTheWay p place ↔ t.OnTheWay p place := by
  rw [OnTheWay, OnTheWay, h.start_eq]

/-- Components are followed to where they were followed to. -/
theorem Retains.follow (h : t.Retains u) (hfollow : t.follow place parts = .ok target) :
    u.follow place parts = .ok target := by
  induction parts generalizing place with
  | nil => exact hfollow
  | cons part parts ih =>
    obtain ⟨hplace, hrest⟩ := follow_cons_eq_ok_iff.mp hfollow
    exact follow_cons_eq_ok_iff.mpr ⟨h.directory place hplace, ih hrest⟩

/-- A path is located where it was located. -/
theorem Retains.locate (h : t.Retains u) (hlocate : t.locate p = .ok place) :
    u.locate p = .ok place := by
  obtain ⟨hnull, hfollow⟩ := locate_eq_ok_iff.mp hlocate
  exact locate_eq_ok_iff.mpr ⟨hnull, by rw [h.start_eq]; exact h.follow hfollow⟩

/-- What was a directory is one. -/
theorem Retains.isDirectory (h : t.Retains u) (hp : t.isDirectory p = true) :
    u.isDirectory p = true := by
  obtain ⟨hlocate, hnode⟩ := isDirectory_iff.mp hp
  rw [isDirectory_iff, h.destination_eq]
  exact ⟨h.locate hlocate, h.directory _ hnode⟩

/-- Trees with the same directories tell the same paths to lead to one. -/
theorem Retains.isDirectory_eq (h : t.Retains u) (h' : u.Retains t) (p : Path) :
    u.isDirectory p = t.isDirectory p :=
  Bool.eq_iff_iff.mpr ⟨h'.isDirectory, h.isDirectory⟩

/-- The top is a directory. -/
theorem node?_nil (t : FileTree) : t.node? [] = some .directory := rfl

/-- A place that is no directory is not the top. -/
theorem ne_nil_of_node? (h : t.node? place ≠ some .directory) : place ≠ [] := by
  rintro rfl
  exact h (node?_nil t)

/-- Below the top a place holds what stands in the table. -/
theorem node?_of_ne_nil (hplace : place ≠ []) (t : FileTree) :
    t.node? place = Keyed.get? place t.nodes := by
  unfold node?
  rw [if_neg (by simpa using hplace)]

/-- What is put at a place is there, and all other places hold what they held. -/
theorem node?_set (hplace : place ≠ []) (t : FileTree) (node : Node) (other : Location) :
    (t.set place node).node? other = if other = place then some node else t.node? other := by
  by_cases hother : other = place
  · subst hother
    rw [if_pos rfl, node?_of_ne_nil hplace]
    exact Keyed.get?_put_self other node t.nodes
  · rw [if_neg hother]
    by_cases htop : other = []
    · rw [htop, node?_nil, node?_nil]
    · rw [node?_of_ne_nil htop, node?_of_ne_nil htop]
      exact Keyed.get?_put_of_ne hother node t.nodes

/-- Putting what is there already changes nothing. -/
theorem set_eq_self (hplace : place ≠ []) (h : t.node? place = some node) :
    t.set place node = t := by
  rw [node?_of_ne_nil hplace] at h
  rw [set, Keyed.put_of_get?_eq_some h]

/-- Of two things put at one place the second one counts. -/
theorem set_set (t : FileTree) (place : Location) (first second : Node) :
    (t.set place first).set place second = t.set place second := by
  unfold set
  dsimp only
  rw [Keyed.put_put]

/-- Putting back what two places hold changes nothing, also if it is one place and only the second
thing is there. -/
theorem set_set_eq_self {other : Location} {first second : Node} (hother : other ≠ [])
    (hsecond : t.node? other = some second)
    (hfirst : place ≠ other → place ≠ [] ∧ t.node? place = some first) :
    (t.set place first).set other second = t := by
  by_cases hsame : place = other
  · rw [hsame, set_set]
    exact set_eq_self hother hsecond
  · obtain ⟨hplace, hnode⟩ := hfirst hsame
    rw [set_eq_self hplace hnode]
    exact set_eq_self hother hsecond

/-- Where no directory is lost, putting something keeps all directories. -/
theorem retains_set (hplace : t.node? place ≠ some .directory) (node : Node) :
    t.Retains (t.set place node) := by
  refine ⟨rfl, fun other hother => ?_⟩
  have hne : other ≠ place := fun heq => hplace (heq ▸ hother)
  rw [node?_set (ne_nil_of_node? hplace), if_neg hne]
  exact hother

/-- Putting something elsewhere, and not over a directory, leaves what is read from a path. -/
theorem read_set (hplace : t.node? place ≠ some .directory) (node : Node)
    (hread : t.read p = .ok content) (hother : t.destination p ≠ place) :
    (t.set place node).read p = .ok content := by
  have hretains := retains_set hplace node
  obtain ⟨hlocate, hfile⟩ := read_eq_ok_iff.mp hread
  rw [read_eq_ok_iff, hretains.destination_eq]
  refine ⟨hretains.locate hlocate, ?_⟩
  rw [node?_set (ne_nil_of_node? hplace), if_neg hother, hfile]

end Bindery.FileTree
