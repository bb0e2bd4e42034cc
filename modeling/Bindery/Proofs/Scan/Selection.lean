import Bindery.Proofs.FileTree.Destination
import Bindery.Proofs.Scan.Annotations

/-!
# Which files a scan selects

The source files below a directory are told by the tree alone: all files, at any depth, whose names
end with the suffix, each one once, in the strict order of their paths. No two lists are like this,
and so the order in which a file system lists a tree does not come through. For this the places of a
tree have to be told by the paths that are compared, so no name may have a slash in it.
-/

namespace Bindery

namespace FileTree

variable {t u : FileTree}

/-- A tree as a file system has it: each place holds one thing, and names are not empty and have no
slash in them. -/
structure WellFormed (t : FileTree) : Prop where
  /-- Every place stands once in the table. -/
  places_nodup : (Keyed.keys t.nodes).Nodup
  /-- Every name can be a part of a path. -/
  names_plain : ∀ place ∈ Keyed.keys t.nodes, ∀ name ∈ place, name ≠ "" ∧ '/' ∉ name.toList

/-- Below the top a file is there exactly if it stands in the table. -/
theorem WellFormed.mem_nodes_iff (h : t.WellFormed) {place : Location} (hplace : place ≠ [])
    {content : List UInt8} :
    (place, Node.file content) ∈ t.nodes ↔ t.fileAt? place = some content := by
  rw [← Keyed.get?_eq_some_iff_mem h.places_nodup, fileAt?, node?_of_ne_nil hplace]
  cases Keyed.get? place t.nodes with
  | none => simp
  | some node => cases node <;> simp

/-- Two trees hold the same, and are listed in two orders. -/
structure Reordered (t u : FileTree) : Prop where
  /-- The reader stands in one place. -/
  workingDirectory_eq : u.workingDirectory = t.workingDirectory
  /-- The entries are the same, in some order. -/
  nodes_perm : u.nodes.Perm t.nodes

/-- The other tree is well-formed, too. -/
theorem Reordered.wellFormed (h : t.Reordered u) (ht : t.WellFormed) : u.WellFormed := by
  have hkeys : (Keyed.keys u.nodes).Perm (Keyed.keys t.nodes) := h.nodes_perm.map Prod.fst
  exact ⟨hkeys.nodup_iff.mpr ht.places_nodup,
    fun place hplace => ht.names_plain place (hkeys.mem_iff.mp hplace)⟩

/-- Each place holds the same in both trees. -/
theorem Reordered.node?_eq (h : t.Reordered u) (ht : t.WellFormed) (place : Location) :
    u.node? place = t.node? place := by
  unfold node?
  rw [Keyed.get?_perm ht.places_nodup h.nodes_perm]

/-- Each place holds the same file in both trees. -/
theorem Reordered.fileAt?_eq (h : t.Reordered u) (ht : t.WellFormed) (place : Location) :
    u.fileAt? place = t.fileAt? place := by
  unfold fileAt?
  rw [h.node?_eq ht]

/-- Paths have the same destinations in both trees. -/
theorem Reordered.destination_eq (h : t.Reordered u) (p : Path) :
    u.destination p = t.destination p := by
  unfold destination start
  rw [h.workingDirectory_eq]

/-- The same paths lead to directories in both trees. -/
theorem Reordered.isDirectory_eq (h : t.Reordered u) (ht : t.WellFormed) (p : Path) :
    u.isDirectory p = t.isDirectory p := by
  have hforth : t.Retains u :=
    ⟨h.workingDirectory_eq, fun place hplace => (h.node?_eq ht place).trans hplace⟩
  have hback : u.Retains t :=
    ⟨h.workingDirectory_eq.symm, fun place hplace => (h.node?_eq ht place).symm.trans hplace⟩
  exact hforth.isDirectory_eq hback p

end FileTree

namespace Path

variable {names names' : Location}

/-- A relative path is its names with slashes between them, if they can be parts of a path. -/
theorem text_below (hne : names ≠ []) (hnames : ∀ name ∈ names, name ≠ "") :
    (below names).text = "/".intercalate names := by
  have hwritten : ("/".intercalate names).isEmpty = false := by
    rw [Bool.eq_false_iff]
    intro hempty
    have htexts : ['/'].intercalate (names.map String.toList) = [] := by
      have hnil := congrArg String.toList (String.isEmpty_iff.mp hempty)
      rwa [String.toList_intercalate] at hnil
    cases names with
    | nil => exact hne rfl
    | cons name rest =>
      have hname := hnames name List.mem_cons_self
      cases rest with
      | nil => exact hname (by simpa using htexts)
      | cons next rest =>
        rw [List.map_cons, List.map_cons, List.intercalate_cons_cons] at htexts
        simp at htexts
  unfold text below Anchor.text
  dsimp only
  rw [String.empty_append, if_neg (by simp [hwritten])]

/-- The names of a relative path are found again between its slashes. -/
theorem fields_text_below (hne : names ≠ [])
    (hnames : ∀ name ∈ names, name ≠ "" ∧ '/' ∉ name.toList) :
    Text.fields '/' (below names).text.toList = names.map String.toList := by
  rw [text_below hne fun name hname => (hnames name hname).1, String.toList_intercalate]
  refine Text.fields_intercalate (by simpa using hne) fun part hpart => ?_
  obtain ⟨name, hname, rfl⟩ := List.mem_map.mp hpart
  exact (hnames name hname).2

/-- Relative paths in writing tell names apart that can be parts of a path. -/
theorem eq_of_text_below_eq (hne : names ≠ []) (hne' : names' ≠ [])
    (hnames : ∀ name ∈ names, name ≠ "" ∧ '/' ∉ name.toList)
    (hnames' : ∀ name ∈ names', name ≠ "" ∧ '/' ∉ name.toList)
    (h : (below names).text = (below names').text) : names = names' := by
  have hfields := fields_text_below hne hnames
  rw [h, fields_text_below hne' hnames'] at hfields
  have htexts : Function.Injective String.toList := fun a b hab => String.toList_inj.mp hab
  exact (List.map_injective_iff.mpr htexts hfields).symm

end Path

namespace Scan

variable {t u : FileTree} {root : Path} {suffix : String} {files files' : List SourceFile}

/-- Some files are the selection below a root. -/
structure Selected (t : FileTree) (root : Path) (suffix : String) (files : List SourceFile) :
    Prop where
  /-- They are all files below the root whose names end with the suffix, and nothing else. -/
  mem_iff : ∀ f, f ∈ files ↔ t.fileAt? (t.destination root ++ f.names) = some f.content ∧
    suffix.toList <:+ (f.names.getLastD "").toList
  /-- No place is there twice. -/
  places_nodup : (files.map SourceFile.names).Nodup
  /-- The path of a file is its names with slashes between them. -/
  relative_eq : ∀ f ∈ files, f.relative = "/".intercalate f.names
  /-- The paths ascend strictly. -/
  ascending : files.Pairwise fun a b => a.relative < b.relative

/-- There is one selection. -/
theorem Selected.unique (h : Selected t root suffix files) (h' : Selected t root suffix files') :
    files = files' := by
  have hperm : files.Perm files' :=
    (List.perm_ext_iff_of_nodup (.of_map _ h.places_nodup) (.of_map _ h'.places_nodup)).mpr
      fun f => (h.mem_iff f).trans (h'.mem_iff f).symm
  refine hperm.eq_of_pairwise (fun a b _ _ hab hba => ?_) h.ascending h'.ascending
  exact absurd (String.lt_trans hab hba) (String.lt_irrefl a.relative)

/-- Trees with the same files of that suffix below a directory have the same selection. -/
theorem Selected.congr (h : Selected u root suffix files)
    (ht : t.isDirectory root = true) (hu : u.isDirectory root = true)
    (hdestination : u.destination root = t.destination root)
    (hsame : ∀ names, names ≠ [] → suffix.toList <:+ (names.getLastD "").toList →
      u.fileAt? (t.destination root ++ names) = t.fileAt? (t.destination root ++ names)) :
    Selected t root suffix files := by
  -- The root itself is no file in either tree.
  have hnone : ∀ v : FileTree, v.isDirectory root = true →
      v.fileAt? (v.destination root ++ []) = none := by
    intro v hv
    rw [List.append_nil, FileTree.fileAt?, (FileTree.isDirectory_iff.mp hv).2]
  have hfile : ∀ names, suffix.toList <:+ (names.getLastD "").toList →
      u.fileAt? (u.destination root ++ names) = t.fileAt? (t.destination root ++ names) := by
    intro names hsuffix
    by_cases hne : names = []
    · rw [hne, hnone u hu, hnone t ht]
    · rw [hdestination, hsame names hne hsuffix]
  refine { h with mem_iff := fun f => ?_ }
  rw [h.mem_iff]
  exact and_congr_left fun hsuffix => by rw [hfile f.names hsuffix]

/-- The source files below a directory of a well-formed tree are the selection. -/
theorem exists_selected (ht : t.WellFormed) (hroot : t.isDirectory root = true)
    (suffix : String) :
    ∃ files, sourceFiles t root suffix = .ok files ∧ Selected t root suffix files := by
  obtain ⟨hlocate, hnode⟩ := FileTree.isDirectory_iff.mp hroot
  obtain ⟨files, hfiles, hsources⟩ := exists_sourceFiles hlocate hnode suffix
  have hplain : ∀ f ∈ files, f.names ≠ [] ∧
      ∀ name ∈ f.names, name ≠ "" ∧ '/' ∉ name.toList := by
    intro f hf
    obtain ⟨hentry, hne, -⟩ := (hsources.mem_iff f).mp hf
    exact ⟨hne, fun name hname =>
      ht.names_plain _ (Keyed.mem_keys_of_mem hentry) name (List.mem_append_right _ hname)⟩
  have hmem : ∀ f, f ∈ files ↔ t.fileAt? (t.destination root ++ f.names) = some f.content ∧
      suffix.toList <:+ (f.names.getLastD "").toList := by
    intro f
    rw [hsources.mem_iff]
    by_cases hne : f.names = []
    · simp [hne, FileTree.fileAt?, hnode]
    · rw [ht.mem_nodes_iff (by simp [hne]), and_iff_right hne]
  have hnames : ∀ f ∈ files, ∀ g ∈ files, f.names = g.names → f = g := by
    intro f hf g hg hsame
    have hcontent := ((hmem f).mp hf).1
    rw [hsame, ((hmem g).mp hg).1] at hcontent
    obtain ⟨names, content⟩ := f
    obtain rfl : names = g.names := hsame
    obtain rfl : g.content = content := Option.some.inj hcontent
    rfl
  have hnodup : files.Nodup := hsources.nodup (.of_map _ ht.places_nodup)
  refine ⟨files, hfiles, hmem, hnodup.map_on hnames, ?_, ?_⟩
  · intro f hf
    obtain ⟨hne, hnames⟩ := hplain f hf
    exact Path.text_below hne fun name hname => (hnames name hname).1
  · refine (hsources.sorted.and hnodup).imp_of_mem fun {a b} ha hb hab => ?_
    refine Std.lt_of_le_of_ne hab.1 fun hsame => hab.2 (hnames a ha b hb ?_)
    exact Path.eq_of_text_below_eq (hplain a ha).1 (hplain b hb).1 (hplain a ha).2 (hplain b hb).2
      hsame

/-- Source files are missing exactly where the root is no directory. -/
theorem exists_sourceFiles_eq_error_iff (ht : t.WellFormed) :
    (∃ fault, sourceFiles t root suffix = .error fault) ↔ t.isDirectory root = false := by
  refine ⟨?_, fun hroot => ⟨_, sourceFiles_of_not_isDirectory hroot suffix⟩⟩
  rintro ⟨fault, hfault⟩
  by_contra hroot
  obtain ⟨files, hfiles, -⟩ := exists_selected ht (by simpa using hroot) suffix
  exact nomatch hfault.symm.trans hfiles

/-- The order in which a tree is listed makes no difference. -/
theorem sourceFiles_reordered (ht : t.WellFormed) (h : t.Reordered u) (root : Path)
    (suffix : String) : sourceFiles u root suffix = sourceFiles t root suffix := by
  have hu := h.wellFormed ht
  have hdirectory := h.isDirectory_eq ht root
  cases hroot : t.isDirectory root with
  | false =>
    rw [sourceFiles_of_not_isDirectory hroot, sourceFiles_of_not_isDirectory]
    rw [hdirectory, hroot]
  | true =>
    rw [hroot] at hdirectory
    obtain ⟨files, hfiles, hselected⟩ := exists_selected ht hroot suffix
    obtain ⟨files', hfiles', hselected'⟩ := exists_selected hu hdirectory suffix
    have hsame := hselected'.congr hroot hdirectory (h.destination_eq root) fun names _ _ =>
      h.fileAt?_eq ht _
    rw [hfiles, hfiles', hselected.unique hsame]

/-- A scan sees nothing of a tree but the source files. -/
theorem surface_congr {settings : ScanSettings}
    (h : sourceFiles u root settings.suffix = sourceFiles t root settings.suffix) :
    surface u root settings = surface t root settings := by
  unfold surface annotationLines
  rw [h]

/-- The selection of files is complete and exact, and does not depend on the order in which the tree
is listed; neither does the scan, in its surface, its log and its failure. There is none exactly
where the root is no directory. -/
theorem selection_is_exact_and_unordered {t : FileTree} (ht : t.WellFormed) (root : Path)
    (suffix : String) :
    ((∃ fault, sourceFiles t root suffix = .error fault) ↔ t.isDirectory root = false) ∧
    (t.isDirectory root = false → sourceFiles t root suffix = .error (.noDirectory root)) ∧
    (t.isDirectory root = true →
      ∃ files, sourceFiles t root suffix = .ok files ∧ Selected t root suffix files ∧
        ∀ files', Selected t root suffix files' → files' = files) ∧
    ∀ u, t.Reordered u → sourceFiles u root suffix = sourceFiles t root suffix ∧
      ∀ settings, surface u root settings = surface t root settings := by
  refine ⟨exists_sourceFiles_eq_error_iff ht,
    fun hroot => sourceFiles_of_not_isDirectory hroot suffix, fun hroot => ?_, fun u hu => ?_⟩
  · obtain ⟨files, hfiles, hselected⟩ := exists_selected ht hroot suffix
    exact ⟨files, hfiles, hselected, fun files' h' => h'.unique hselected⟩
  · exact ⟨sourceFiles_reordered ht hu root suffix, fun settings =>
      surface_congr (sourceFiles_reordered ht hu root settings.suffix)⟩

/-- A file below a directory that is named like a source file. -/
def nestedFile : SourceFile := ⟨["a", "XAPIs.cpp", "YAPIs.cpp"], [0x41]⟩

/-- A file in a directory whose name goes on with a character below the slash. -/
def hyphenFile : SourceFile := ⟨["a-b", "APIs.cpp"], []⟩

/-- A tree with these two source files below a root, and with others that are none. -/
def nestedTree : FileTree := ⟨[(["src"], .directory), (["src", "a"], .directory),
  (["src", "a", "XAPIs.cpp"], .directory), ("src" :: nestedFile.names, .file nestedFile.content),
  (["src", "a-b"], .directory), ("src" :: hyphenFile.names, .file hyphenFile.content),
  (["src", "notes.txt"], .file []), (["ZAPIs.cpp"], .file [])], []⟩

/-- The same tree, listed from the other end. -/
def nestedTreeReversed : FileTree := ⟨nestedTree.nodes.reverse, []⟩

/-- Both lists of the tree give the two files, the one with the hyphen first. -/
theorem selection_in_nestedTree :
    nestedTree.WellFormed ∧ nestedTree.Reordered nestedTreeReversed ∧
    nestedTree.isDirectory (.below ["src"]) = true ∧
    Selected nestedTree (.below ["src"]) "APIs.cpp" [hyphenFile, nestedFile] ∧
    sourceFiles nestedTree (.below ["src"]) "APIs.cpp" = .ok [hyphenFile, nestedFile] ∧
    sourceFiles nestedTreeReversed (.below ["src"]) "APIs.cpp" =
      sourceFiles nestedTree (.below ["src"]) "APIs.cpp" ∧
    surface nestedTreeReversed (.below ["src"]) {} = surface nestedTree (.below ["src"]) {} := by
  have hwell : nestedTree.WellFormed := ⟨by decide, by decide⟩
  have horder : nestedTree.Reordered nestedTreeReversed :=
    ⟨rfl, List.reverse_perm nestedTree.nodes⟩
  have hroot : nestedTree.isDirectory (.below ["src"]) = true := by decide
  have htwo : sourceFiles nestedTree (.below ["src"]) "APIs.cpp" =
      .ok ([nestedFile, hyphenFile].mergeSort fun a b => decide (a.relative ≤ b.relative)) := rfl
  have hhyphen : ¬nestedFile.relative ≤ hyphenFile.relative := by decide
  have hsorted : ([nestedFile, hyphenFile].mergeSort fun a b => decide (a.relative ≤ b.relative)) =
      [hyphenFile, nestedFile] := by
    simp [List.mergeSort, List.MergeSort.Internal.splitInTwo, hhyphen]
  rw [hsorted] at htwo
  obtain ⟨-, -, hselection, hunordered⟩ :=
    selection_is_exact_and_unordered hwell (.below ["src"]) "APIs.cpp"
  obtain ⟨files, hfiles, hselected, -⟩ := hselection hroot
  obtain rfl : files = [hyphenFile, nestedFile] := Except.ok.inj (hfiles.symm.trans htwo)
  obtain ⟨hsame, hsurface⟩ := hunordered nestedTreeReversed horder
  exact ⟨hwell, horder, hroot, hselected, htwo, hsame, hsurface {}⟩

end Scan

end Bindery
