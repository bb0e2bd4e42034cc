import Bindery.Proofs.FileTree.Destination

/-!
# What writing does to a tree

Making directories adds directories on the way to a place, where nothing was before, and does
nothing else; writing a file below them puts the file there. So all directories stay, and a file
that was written once can be written over.
-/

namespace Bindery.FileTree

variable {t u v : FileTree} {p : Path} {place : Location} {way : Location → Prop}
  {content : List UInt8}

/-- A tree grows by directories, each at a place of some kind where nothing was. -/
inductive Grows (way : Location → Prop) (t : FileTree) : FileTree → Prop
  | refl : Grows way t t
  | add {u : FileTree} {place : Location} (before : Grows way t u) (hnew : u.node? place = none)
    (hway : way place) : Grows way t (u.set place .directory)

/-- Growing twice is growing. -/
theorem Grows.trans (h : Grows way t u) (h' : Grows way u v) : Grows way t v := by
  induction h' with
  | refl => exact h
  | add _ hnew hway ih => exact .add ih hnew hway

/-- Places of one kind may be of a wider kind. -/
theorem Grows.mono {wider : Location → Prop} (h : Grows way t u)
    (hway : ∀ place, way place → wider place) : Grows wider t u := by
  induction h with
  | refl => exact .refl
  | add _ hnew hplace ih => exact .add ih hnew (hway _ hplace)

/-- A tree that grows keeps its directories. -/
theorem Grows.retains (h : Grows way t u) : t.Retains u := by
  induction h with
  | refl => exact .refl t
  | add _ hnew _ ih => exact ih.trans (retains_set (by simp [hnew]) _)

/-- After a tree has grown a place holds what it held, or it held nothing and is a directory now.
-/
theorem Grows.node?_eq (h : Grows way t u) (place : Location) :
    u.node? place = t.node? place ∨
      t.node? place = none ∧ u.node? place = some .directory ∧ way place := by
  induction h with
  | refl => exact .inl rfl
  | @add u added _ hnew hway ih =>
    have hfree : u.node? added ≠ some .directory := by simp [hnew]
    rw [node?_set (ne_nil_of_node? hfree)]
    by_cases hplace : place = added
    · subst hplace
      rw [if_pos rfl]
      rcases ih with hsame | ⟨-, hdirectory, -⟩
      · exact .inr ⟨hsame.symm.trans hnew, rfl, hway⟩
      · exact absurd (hnew.symm.trans hdirectory) (by simp)
    · rw [if_neg hplace]
      exact ih

/-- A directory is made where nothing was. -/
theorem makeDirectory_eq_ok (h : t.makeDirectory p = .ok u) :
    t.locate p = .ok (t.destination p) ∧ t.node? (t.destination p) = none ∧
      u = t.set (t.destination p) .directory := by
  unfold makeDirectory at h
  split at h
  · exact nomatch h
  next place hplace =>
    obtain rfl := eq_destination_of_locate hplace
    split at h
    · exact nomatch h
    next hnode _ => exact ⟨hplace, hnode, (Except.ok.inj h).symm⟩
    · exact nomatch h
    · exact nomatch h

/-- The way to the parent of a path is on the way to the path. -/
theorem OnTheWay.of_parent (h : t.OnTheWay p.parent place) : t.OnTheWay p place := by
  obtain ⟨parts, hparts, rfl⟩ := h
  exact ⟨parts, hparts.trans p.parts.dropLast_prefix, rfl⟩

/-- A path leads to a place on its way. -/
theorem onTheWay_destination (t : FileTree) (p : Path) : t.OnTheWay p (t.destination p) :=
  ⟨p.parts, List.prefix_refl _, rfl⟩

/-- Making one directory adds it, or nothing is added. -/
theorem grows_makeDirectory (h : t.makeDirectory p = .ok u) : Grows (t.OnTheWay p) t u := by
  obtain ⟨-, hnew, rfl⟩ := makeDirectory_eq_ok h
  exact .add .refl hnew (t.onTheWay_destination p)

/-- Making directories adds directories on the way, also if it fails. -/
theorem grows_makeDirectories (t : FileTree) (p : Path) :
    Grows (t.OnTheWay p) t (t.makeDirectories p).1 := by
  fun_induction makeDirectories t p with
  | case1 p made hmade => exact grows_makeDirectory hmade
  | case2 p hmissing hparts => exact .refl
  | case3 p hmissing hparts around f haround ih =>
    rw [haround] at ih
    exact ih.mono fun _ => .of_parent
  | case4 p hmissing hparts around haround made hmade ih =>
    rw [haround] at ih
    have hway := ih.mono fun _ => OnTheWay.of_parent
    exact hway.trans ((grows_makeDirectory hmade).mono fun _ => ih.retains.onTheWay_iff.mp)
  | case5 p hmissing hparts around haround e he ih =>
    rw [haround] at ih
    exact ih.mono fun _ => .of_parent
  | case6 p e he hcause => exact .refl

/-- A directory that was made is there. -/
theorem isDirectory_of_makeDirectory (h : t.makeDirectory p = .ok u) : u.isDirectory p = true := by
  have hretains := (grows_makeDirectory h).retains
  obtain ⟨hlocate, hnew, rfl⟩ := makeDirectory_eq_ok h
  have hfree : t.node? (t.destination p) ≠ some .directory := by simp [hnew]
  refine isDirectory_iff.mpr ⟨?_, ?_⟩
  · rw [hretains.destination_eq]
    exact hretains.locate hlocate
  · rw [hretains.destination_eq, node?_set (ne_nil_of_node? hfree), if_pos rfl]

/-- A directory that is accepted is there. -/
theorem isDirectory_of_acceptDirectory {e : FileCause}
    (h : t.acceptDirectory p e = (u, .ok ())) : u = t ∧ t.isDirectory p = true := by
  obtain ⟨rfl, hok⟩ := Prod.mk.inj h
  refine ⟨rfl, ?_⟩
  by_contra hno
  rw [if_neg hno] at hok
  exact nomatch hok

/-- Directories that were made are there. -/
theorem isDirectory_of_makeDirectories (h : t.makeDirectories p = (u, .ok ())) :
    u.isDirectory p = true := by
  unfold makeDirectories at h
  split at h
  next made hmade =>
    obtain ⟨rfl, -⟩ := Prod.mk.inj h
    exact isDirectory_of_makeDirectory hmade
  · split at h
    · simp at h
    · split at h
      · simp at h
      next around _ =>
        split at h
        next made hmade =>
          obtain ⟨rfl, -⟩ := Prod.mk.inj h
          exact isDirectory_of_makeDirectory hmade
        next e _ =>
          obtain ⟨rfl, hdirectory⟩ := isDirectory_of_acceptDirectory h
          exact hdirectory
  · obtain ⟨rfl, hdirectory⟩ := isDirectory_of_acceptDirectory h
    exact hdirectory

/-- Where a directory is, none has to be made. -/
theorem makeDirectories_of_isDirectory (h : t.isDirectory p = true) :
    t.makeDirectories p = (t, .ok ()) := by
  obtain ⟨hlocate, hnode⟩ := isDirectory_iff.mp h
  have hthere : t.makeDirectory p = .error .alreadyExists := by
    unfold makeDirectory
    rw [hlocate]
    dsimp only
    rw [hnode]
  unfold makeDirectories
  rw [hthere]
  dsimp only
  rw [acceptDirectory, if_pos h]

/-- A file is written at the destination of its path, where no directory is. -/
theorem write_eq_ok (h : t.write p content = .ok u) :
    t.locate p = .ok (t.destination p) ∧ t.node? (t.destination p) ≠ some .directory ∧
      u = t.set (t.destination p) (.file content) := by
  unfold write at h
  split at h
  · exact nomatch h
  next place hplace =>
    obtain rfl := eq_destination_of_locate hplace
    split at h
    · exact nomatch h
    next hnode => exact ⟨hplace, by simp [hnode], (Except.ok.inj h).symm⟩
    next hnode _ => exact ⟨hplace, by simp [hnode], (Except.ok.inj h).symm⟩
    · exact nomatch h
    · exact nomatch h

/-- A file that is there is written over. -/
theorem write_of_file {old : List UInt8} (hlocate : t.locate p = .ok (t.destination p))
    (hfile : t.node? (t.destination p) = some (.file old)) (content : List UInt8) :
    t.write p content = .ok (t.set (t.destination p) (.file content)) := by
  unfold write
  rw [hlocate]
  dsimp only
  rw [hfile]

/-- Writing below directories that are made, taken apart: the tree grows by the directories, and
then the file is put where its path leads. -/
structure Writes (t : FileTree) (p : Path) (content : List UInt8) (made u : FileTree) : Prop where
  /-- Directories are made on the way to the one of the file. -/
  grows : Grows (t.OnTheWay p.parent) t made
  /-- The directory of the file is there. -/
  parent : made.isDirectory p.parent = true
  /-- The path leads to the place of the file. -/
  locate : made.locate p = .ok (t.destination p)
  /-- No directory is there. -/
  free : made.node? (t.destination p) ≠ some .directory
  /-- The file is put there. -/
  eq_set : u = made.set (t.destination p) (.file content)

/-- A write that succeeds makes directories and puts the file. -/
theorem exists_writes (h : t.writeBelow p content = (u, .ok ())) :
    ∃ made, t.Writes p content made u := by
  have hgrows := grows_makeDirectories t p.parent
  unfold writeBelow at h
  cases hmade : t.makeDirectories p.parent with
  | mk made result =>
    rw [hmade] at h hgrows
    dsimp only at hgrows
    cases result with
    | error f => exact nomatch h
    | ok =>
      dsimp only at h
      cases hwrite : made.write p content with
      | error f =>
        rw [hwrite] at h
        exact nomatch h
      | ok written =>
        rw [hwrite] at h
        obtain ⟨rfl, -⟩ := Prod.mk.inj h
        have hdestination := hgrows.retains.destination_eq p
        obtain ⟨hlocate, hfree, heq⟩ := write_eq_ok hwrite
        rw [hdestination] at hlocate hfree heq
        exact ⟨made, hgrows, isDirectory_of_makeDirectories hmade, hlocate, hfree, heq⟩

section Writes

variable {made : FileTree} (h : t.Writes p content made u)

include h

/-- Directories stay when a file is written. -/
theorem Writes.retains : t.Retains u := by
  rw [h.eq_set]
  exact h.grows.retains.trans (retains_set h.free _)

/-- The file is there. -/
theorem Writes.node?_destination : u.node? (t.destination p) = some (.file content) := by
  rw [h.eq_set, node?_set (ne_nil_of_node? h.free), if_pos rfl]

/-- Every other place holds what it held, or it held nothing and is a directory on the way now. -/
theorem Writes.node?_eq {place : Location} (hplace : place ≠ t.destination p) :
    u.node? place = t.node? place ∨
      t.node? place = none ∧ u.node? place = some .directory ∧ t.OnTheWay p.parent place := by
  rw [h.eq_set, node?_set (ne_nil_of_node? h.free), if_neg hplace]
  exact h.grows.node?_eq place

/-- What was written is read. -/
theorem Writes.read_eq : u.read p = .ok content := by
  have hput : made.Retains u := by
    rw [h.eq_set]
    exact retains_set h.free _
  rw [read_eq_ok_iff, h.retains.destination_eq]
  exact ⟨hput.locate h.locate, h.node?_destination⟩

end Writes

/-- Where a file was written, and then directories were kept and a file is at its place, another
write to its path succeeds and does nothing but put the file. -/
theorem Writes.again {made : FileTree} (h : t.Writes p content made u) (hretains : u.Retains v)
    {old : List UInt8} (hfile : v.node? (t.destination p) = some (.file old))
    (content' : List UInt8) :
    v.writeBelow p content' = (v.set (t.destination p) (.file content'), .ok ()) := by
  have hput : made.Retains v := by
    refine Retains.trans ?_ hretains
    rw [h.eq_set]
    exact retains_set h.free _
  have hdestination := (h.retains.trans hretains).destination_eq p
  have hlocate := hput.locate h.locate
  rw [← hdestination] at hlocate hfile ⊢
  unfold writeBelow
  rw [makeDirectories_of_isDirectory (hput.isDirectory h.parent)]
  dsimp only
  rw [write_of_file hlocate hfile]

section Two

variable {middle made made' : FileTree} {q : Path} {first second : List UInt8}
  (hfirst : t.Writes p first made middle) (hsecond : middle.Writes q second made' u)

include hfirst hsecond

/-- After two writes the second file is at its place. -/
theorem Writes.node?_second : u.node? (t.destination q) = some (.file second) := by
  rw [← hfirst.retains.destination_eq q]
  exact hsecond.node?_destination

/-- After two writes the first file is at its place, unless that is the place of the second. -/
theorem Writes.node?_first : u.node? (t.destination p) =
    some (.file (if t.destination p = t.destination q then second else first)) := by
  split
  next hsame =>
    rw [hsame]
    exact hfirst.node?_second hsecond
  next hother =>
    rw [← hfirst.retains.destination_eq q] at hother
    have hthere := hfirst.node?_destination
    rcases hsecond.node?_eq hother with hkept | ⟨hnone, -⟩
    · rw [hkept, hthere]
    · exact nomatch hthere.symm.trans hnone

/-- After two writes the first file is read, unless the second stands at its place. -/
theorem Writes.read_first :
    u.read p = .ok (if t.destination p = t.destination q then second else first) := by
  have hlocate := (read_eq_ok_iff.mp hfirst.read_eq).1
  rw [hfirst.retains.destination_eq] at hlocate
  rw [read_eq_ok_iff, (hfirst.retains.trans hsecond.retains).destination_eq]
  exact ⟨hsecond.retains.locate hlocate, hfirst.node?_first hsecond⟩

/-- Writing both files again puts the first one at its place, and then leaves the tree as it was
before that. -/
theorem Writes.both_again :
    u.writeBelow p first = (u.set (t.destination p) (.file first), .ok ()) ∧
      (u.set (t.destination p) (.file first)).writeBelow q second = (u, .ok ()) := by
  have hnodeFirst := hfirst.node?_first hsecond
  have hnodeSecond := hfirst.node?_second hsecond
  have hfree : u.node? (t.destination p) ≠ some .directory := by simp [hnodeFirst]
  have hfree' : u.node? (t.destination q) ≠ some .directory := by simp [hnodeSecond]
  have hplace := ne_nil_of_node? hfree
  refine ⟨hfirst.again hsecond.retains hnodeFirst first, ?_⟩
  have hfile : ∃ old, (u.set (t.destination p) (.file first)).node? (middle.destination q) =
      some (.file old) := by
    rw [hfirst.retains.destination_eq, node?_set hplace]
    split
    · exact ⟨first, rfl⟩
    · exact ⟨second, hnodeSecond⟩
  obtain ⟨old, hfile⟩ := hfile
  rw [hsecond.again (retains_set hfree _) hfile, hfirst.retains.destination_eq,
    set_set_eq_self (ne_nil_of_node? hfree') hnodeSecond]
  -- Where the places differ, the first file is what is there already.
  intro hother
  rw [if_neg hother] at hnodeFirst
  exact ⟨hplace, hnodeFirst⟩

end Two

end Bindery.FileTree
