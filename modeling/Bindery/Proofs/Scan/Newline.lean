import Bindery.Proofs.FileTree.Destination
import Bindery.Proofs.Scan.Annotations
import Bindery.Proofs.Text.Newline

/-!
# A scan does not see how lines are ended

A scan sees nothing of a file but its names and its lines. Files of the same lines under different
conventions deliver the same, and so trees of such files have the same annotations, under the same
numbers, and the same surface, whichever files are written in which way.
-/

namespace Bindery

/-- Two things at a place are the same, or they are files of the same lines, each written under one
convention, with or without an end of the last line. -/
inductive Node.Alike : Node → Node → Prop
  | refl (node : Node) : Alike node node
  | files {lines : List String} (h : Lines.Separable lines) (e e' : Lines.Newline)
    (final final' : Bool) : Alike (.file (Utf8.encode (e.join final lines)))
      (.file (Utf8.encode (e'.join final' lines)))

/-- Two trees have the same places, and at each of them the same or files of the same lines. -/
structure FileTree.Alike (t u : FileTree) : Prop where
  /-- The reader stands in one place. -/
  workingDirectory_eq : u.workingDirectory = t.workingDirectory
  /-- At each place things are alike. -/
  nodes : List.Forall₂ (fun a b => a.1 = b.1 ∧ Node.Alike a.2 b.2) t.nodes u.nodes

/-- What a scan sees of a thing at a place: what a file delivers. -/
def Node.delivery? : Node → Option Lines.Delivery
  | .file content => some (Lines.ofBytes content)
  | .directory => none

/-- What a scan sees of a file. -/
def SourceFile.seen (f : SourceFile) : Location × Lines.Delivery :=
  (f.names, Lines.ofBytes f.content)

/-- What a scan uses of a marked line: the names of its file, its number and its text. -/
def MarkedLine.shown (l : MarkedLine) : Location × Nat × String := (l.file.names, l.number, l.text)

/-- What a scan uses of a listing. -/
def Listing.shown (listing : Listing) : List (Location × Nat × String) × Option ScanFault :=
  (listing.lines.map MarkedLine.shown, listing.fault)

/-- Things that are alike deliver the same. -/
theorem Node.Alike.delivery?_eq {node node' : Node} (h : node.Alike node') :
    node'.delivery? = node.delivery? := by
  cases h with
  | refl => rfl
  | files h e e' final final' =>
    rw [delivery?, delivery?, Lines.ofBytes_join e final h, Lines.ofBytes_join e' final' h]

namespace FileTree

variable {t u : FileTree} {place : Location}

/-- What a scan sees of the places of a tree. -/
def seen (t : FileTree) : List (Location × Option Lines.Delivery) :=
  t.nodes.map fun e => (e.1, e.2.delivery?)

/-- A scan sees the same of trees that are alike. -/
theorem Alike.seen_eq (h : t.Alike u) : u.seen = t.seen := by
  have hnodes := h.nodes
  unfold seen
  generalize t.nodes = nodes at hnodes ⊢
  generalize u.nodes = nodes' at hnodes ⊢
  induction hnodes with
  | nil => rfl
  | cons hentry _ ih =>
    rw [List.map_cons, List.map_cons, ih, hentry.1, hentry.2.delivery?_eq]

/-- What a scan sees at a place is what it sees there of the tree. -/
theorem delivery?_node? (hplace : place ≠ []) (t : FileTree) :
    (t.node? place).map Node.delivery? = Keyed.get? place t.seen := by
  rw [node?_of_ne_nil hplace, seen, Keyed.get?_map fun _ => Node.delivery?]

/-- A thing of which no lines are seen is a directory. -/
theorem node?_eq_directory_iff :
    t.node? place = some .directory ↔ (t.node? place).map Node.delivery? = some none := by
  cases t.node? place with
  | none => simp
  | some node => cases node <;> simp [Node.delivery?]

/-- Trees that are alike have the same directories. -/
theorem Alike.node?_eq_directory_iff (h : t.Alike u) :
    u.node? place = some .directory ↔ t.node? place = some .directory := by
  by_cases hplace : place = []
  · rw [hplace, node?_nil, node?_nil]
  · rw [FileTree.node?_eq_directory_iff, FileTree.node?_eq_directory_iff, delivery?_node? hplace,
      delivery?_node? hplace, h.seen_eq]

/-- A tree keeps the directories of one that is alike. -/
theorem Alike.retains (h : t.Alike u) : t.Retains u :=
  ⟨h.workingDirectory_eq, fun _ hplace => h.node?_eq_directory_iff.mpr hplace⟩

/-- The same paths lead to directories. -/
theorem Alike.isDirectory_eq (h : t.Alike u) (p : Path) : u.isDirectory p = t.isDirectory p := by
  have hback : u.Retains t :=
    ⟨h.workingDirectory_eq.symm, fun _ hplace => h.node?_eq_directory_iff.mp hplace⟩
  exact h.retains.isDirectory_eq hback p

/-- What a scan sees of a place gives, for the files below a location, what it sees of a file. -/
def seenBelow? (root : Location) :
    Location × Option Lines.Delivery → Option (Location × Lines.Delivery)
  | (place, delivery?) =>
    match relative? root place, delivery? with
    | some (name :: names), some delivery => some (name :: names, delivery)
    | _, _ => none

/-- What a scan sees of the files below a location is told by what it sees of the tree. -/
theorem map_filesBelow (t : FileTree) (root : Location) :
    (t.filesBelow root).map (fun f => (f.1, Lines.ofBytes f.2)) =
      t.seen.filterMap (seenBelow? root) := by
  rw [filesBelow_eq, seen, List.map_filterMap, List.filterMap_map]
  refine List.filterMap_congr fun e _ => ?_
  obtain ⟨place, node⟩ := e
  unfold entryBelow?
  dsimp only [Function.comp_apply]
  unfold seenBelow?
  dsimp only
  cases relative? root place with
  | none => rfl
  | some names =>
    cases names with
    | nil => rfl
    | cons name names => cases node <;> rfl

end FileTree

namespace Scan

variable {t u : FileTree} {root : Path}

/-- What is seen of the source files below a directory is told by what is seen of all files there.
-/
theorem exists_map_seen_sourceFiles (hroot : t.isDirectory root = true) (suffix : String) :
    ∃ files, sourceFiles t root suffix = .ok files ∧ files.map SourceFile.seen =
      (((t.filesBelow (t.destination root)).map fun f => (f.1, Lines.ofBytes f.2)).filter
        fun f => isSource suffix f.1).mergeSort
          fun a b => decide ((Path.below a.1).text ≤ (Path.below b.1).text) := by
  obtain ⟨hlocate, hnode⟩ := FileTree.isDirectory_iff.mp hroot
  unfold sourceFiles
  rw [hlocate]
  dsimp only
  rw [hnode]
  refine ⟨_, rfl, ?_⟩
  have hsort : ∀ files : List SourceFile,
      (files.mergeSort fun a b => decide (a.relative ≤ b.relative)).map SourceFile.seen =
        (files.map SourceFile.seen).mergeSort
          fun a b => decide ((Path.below a.1).text ≤ (Path.below b.1).text) :=
    fun files => List.map_mergeSort fun _ _ _ _ => rfl
  rw [hsort, List.map_map, List.filter_map]
  rfl

/-- The source files of trees that are alike look the same, and are missing in both or in neither.
-/
theorem sourceFiles_alike (h : t.Alike u) (root : Path) (suffix : String) :
    Logged.Outcome (· = ·)
      (fun files files' => files'.map SourceFile.seen = files.map SourceFile.seen)
      (sourceFiles t root suffix) (sourceFiles u root suffix) := by
  have hdirectory := h.isDirectory_eq root
  cases hroot : t.isDirectory root with
  | false =>
    rw [hroot] at hdirectory
    rw [sourceFiles_of_not_isDirectory hroot, sourceFiles_of_not_isDirectory hdirectory]
    exact .error rfl
  | true =>
    rw [hroot] at hdirectory
    obtain ⟨files, hfiles, hseen⟩ := exists_map_seen_sourceFiles hroot suffix
    obtain ⟨files', hfiles', hseen'⟩ := exists_map_seen_sourceFiles hdirectory suffix
    rw [hfiles, hfiles']
    refine .ok ?_
    rw [hseen, hseen', FileTree.map_filesBelow, FileTree.map_filesBelow, h.seen_eq,
      h.retains.destination_eq]

/-- Files that look the same have the same marked lines. -/
theorem map_shown_markedFrom {file file' : SourceFile} (h : file'.names = file.names)
    (marker : List Char) (number : Nat) (lines : List (List Char)) :
    (markedFrom marker file' number lines).map MarkedLine.shown =
      (markedFrom marker file number lines).map MarkedLine.shown := by
  rw [markedFrom_eq, markedFrom_eq, List.map_map, List.map_map]
  refine List.map_congr_left fun line _ => ?_
  simp only [Function.comp_apply, MarkedLine.shown, h]

/-- Source files that look the same are listed the same. -/
theorem shown_markedLines {files files' : List SourceFile}
    (h : files'.map SourceFile.seen = files.map SourceFile.seen) (root : Path) (marker : String) :
    (markedLines root marker files').shown = (markedLines root marker files).shown := by
  induction files generalizing files' with
  | nil => rw [List.map_eq_nil_iff.mp h]
  | cons file files ih =>
    obtain ⟨file', rest, rfl, hfile, hrest⟩ := List.map_eq_cons_iff.mp h
    obtain ⟨hnames, hdelivery⟩ := Prod.mk.inj hfile
    obtain ⟨hlines, hfault⟩ := Prod.mk.inj (ih hrest)
    have hpath : file'.path root = file.path root := by
      rw [SourceFile.path, SourceFile.path, hnames]
    have hfirst := map_shown_markedFrom hnames marker.toList 1 (Lines.ofBytes file.content).lines
    unfold Listing.shown
    rw [markedLines, markedLines, hdelivery, hpath]
    cases (Lines.ofBytes file.content).fault with
    | some f => rw [hfirst]
    | none => simp only [List.map_append, hfirst, hlines, hfault]

/-- Trees that are alike have the same annotation lines. -/
theorem annotationLines_alike (h : t.Alike u) (root : Path) (suffix marker : String) :
    Logged.Outcome (· = ·) (fun listing listing' => listing'.shown = listing.shown)
      (annotationLines t root suffix marker) (annotationLines u root suffix marker) := by
  have hfiles := sourceFiles_alike h root suffix
  unfold annotationLines
  generalize sourceFiles t root suffix = x at hfiles ⊢
  generalize sourceFiles u root suffix = y at hfiles ⊢
  cases hfiles with
  | error he => exact .error he
  | ok hseen => exact .ok (shown_markedLines hseen root marker)

/-- A walk along lines needs nothing of them but what is shown. -/
theorem foldlM_addLine_eq (settings : ScanSettings) (s : Surface) (lines : List MarkedLine) :
    lines.foldlM (addLine settings) s =
      (lines.map MarkedLine.shown).foldlM
        (fun s l => addLine settings s ⟨⟨l.1, []⟩, l.2.1, l.2.2⟩) s := by
  rw [List.foldlM_map]
  rfl

/-- Trees that are alike have the same surface. -/
theorem surface_alike (h : t.Alike u) (root : Path) (settings : ScanSettings) :
    surface u root settings = surface t root settings := by
  have hlisting := annotationLines_alike h root settings.suffix settings.reading.marker
  unfold surface
  generalize annotationLines t root settings.suffix settings.reading.marker = x at hlisting ⊢
  generalize annotationLines u root settings.suffix settings.reading.marker = y at hlisting ⊢
  cases hlisting with
  | error he => rw [he]
  | ok hshown =>
    obtain ⟨hlines, hfault⟩ := Prod.mk.inj hshown
    dsimp only
    rw [foldlM_addLine_eq, hlines, ← foldlM_addLine_eq, hfault]

/-- What is delivered from the file at a path is told by its bytes. -/
structure Delivers (path : String) (bytes : List UInt8) (r : List String × Option ScanFault) :
    Prop where
  /-- All lines are delivered exactly if the bytes are valid. -/
  fault_eq_none_iff : r.2 = none ↔ bytes.toByteArray.IsValidUTF8
  /-- Otherwise the fault is that the file at the path is no text. -/
  fault_eq : ∀ fault, r.2 = some fault → ∃ f, fault = .notText path f
  /-- No line has a character in it that ends lines, also before a fault. -/
  unbroken : ∀ line ∈ r.1, Lines.Unbroken line.toList
  /-- The lines of a text are what the text is made of. -/
  written : ∀ text, bytes = Utf8.encode text → Lines.Written (r.1.map String.toList) text.toList
  /-- Lines that were joined under a convention, with or without a last end, are the lines. -/
  joined : ∀ (e : Lines.Newline) final lines, Lines.Separable lines →
    bytes = Utf8.encode (e.join final lines) → r = (lines, none)

/-- A file that can be read delivers what its bytes tell. -/
theorem delivers_fileLines {path : String} {bytes : List UInt8}
    (h : t.read (.ofString path) = .ok bytes) : Delivers path bytes (fileLines t path) := by
  have hlines : fileLines t path = ((Lines.ofBytes bytes).lines.map String.ofList,
      (Lines.ofBytes bytes).fault.map (.notText path ·)) := by
    rw [fileLines, h]
  rw [hlines]
  refine ⟨?_, ?_, ?_, ?_, ?_⟩
  · rw [Option.map_eq_none_iff, Lines.fault_ofBytes_eq_none_iff, Utf8.exists_eq_encode_iff]
  · intro fault hfault
    obtain ⟨f, -, rfl⟩ := Option.map_eq_some_iff.mp hfault
    exact ⟨f, rfl⟩
  · intro line hline
    obtain ⟨chars, hchars, rfl⟩ := List.mem_map.mp hline
    rw [String.toList_ofList]
    exact Lines.unbroken_ofBytes bytes chars hchars
  · rintro text rfl
    have hback : String.toList ∘ String.ofList = id := funext fun _ => String.toList_ofList
    rw [Lines.ofBytes_encode, List.map_map, hback, List.map_id]
    exact Lines.written_ofText text.toList
  · rintro e final lines hseparable rfl
    have hback : String.ofList ∘ String.toList = id := funext fun _ => String.ofList_toList
    rw [Lines.ofBytes_join e final hseparable, List.map_map, hback, List.map_id]
    rfl

/-- A file has the same numbered lines under every convention: it delivers what its bytes tell, and
trees that differ in the conventions of their files alone have the same annotation lines and the
same surface. -/
theorem lines_agree_under_conventions :
    (∀ t path bytes, FileTree.read t (.ofString path) = .ok bytes →
      Delivers path bytes (fileLines t path)) ∧
    ∀ t u, FileTree.Alike t u → ∀ root,
      (∀ suffix marker, Logged.Outcome (· = ·)
        (fun listing listing' => listing'.shown = listing.shown)
        (annotationLines t root suffix marker) (annotationLines u root suffix marker)) ∧
      ∀ settings, surface u root settings = surface t root settings :=
  ⟨fun _ _ _ h => delivers_fileLines h,
    fun _ _ h root => ⟨annotationLines_alike h root, surface_alike h root⟩⟩

end Scan

end Bindery
