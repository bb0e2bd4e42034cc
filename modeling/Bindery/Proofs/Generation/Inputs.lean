import Bindery.Proofs.Generation.Rendering
import Bindery.Proofs.Scan.Selection

/-!
# What a generation reads

A generation sees two things of a tree: the source files below a directory and the file of the
event schema. What is rendered depends on these alone. Directories that are made do not come among
the sources, and neither does a file at a place that is no place of a source; so a generation that
writes apart from what it reads leaves what it reads as it was.
-/

namespace Bindery

namespace Scan

/-- The source file that an entry of a tree is, below a place. -/
def sourceFile? (place : Location) (suffix : String) (entry : Location × Node) :
    Option SourceFile :=
  ((FileTree.entryBelow? place entry).filter fun found => isSource suffix found.1).map
    fun found => ⟨found.1, found.2⟩

/-- A directory has the source files that the entries of the tree are, in the order of their paths.
-/
theorem sourceFiles_eq_ok_iff {t : FileTree} {root : Path} {suffix : String}
    {files : List SourceFile} : sourceFiles t root suffix = .ok files ↔
      t.isDirectory root = true ∧ files =
        (t.nodes.filterMap (sourceFile? (t.destination root) suffix)).mergeSort
          fun a b => decide (a.relative ≤ b.relative) := by
  cases hdirectory : t.isDirectory root with
  | false => simp [sourceFiles_of_not_isDirectory hdirectory]
  | true =>
    obtain ⟨hlocate, hnode⟩ := FileTree.isDirectory_iff.mp hdirectory
    unfold sourceFiles
    rw [hlocate]
    dsimp only
    rw [hnode]
    dsimp only
    rw [FileTree.filesBelow_eq, List.filter_filterMap, List.map_filterMap, Except.ok.injEq]
    exact ⟨fun h => ⟨rfl, h.symm⟩, fun h => h.2.symm⟩

/-- Only a source file below the place is one. -/
theorem sourceFile?_eq_some_iff {place other : Location} {suffix : String} {node : Node}
    {f : SourceFile} : sourceFile? place suffix (other, node) = some f ↔
      other = place ++ f.names ∧ node = .file f.content ∧ f.names ≠ [] ∧
        isSource suffix f.names = true := by
  obtain ⟨names, content⟩ := f
  simp only [sourceFile?, Option.map_eq_some_iff, Option.filter_eq_some_iff, Prod.exists,
    FileTree.entryBelow?_eq_some_iff, Prod.mk.injEq, SourceFile.mk.injEq]
  constructor
  · rintro ⟨names', content', ⟨⟨⟨hother, hnode⟩, hne⟩, hsource⟩, rfl, rfl⟩
    exact ⟨hother, hnode, hne, hsource⟩
  · rintro ⟨hother, hnode, hne, hsource⟩
    exact ⟨names, content, ⟨⟨⟨hother, hnode⟩, hne⟩, hsource⟩, rfl, rfl⟩

/-- Putting something in a tree leaves the source files if its entries give the same ones. -/
theorem sourceFiles_set {t : FileTree} {root : Path} {suffix : String} {files : List SourceFile}
    {place : Location} {node : Node} (hplace : t.node? place ≠ some .directory)
    (hentries : (Keyed.put place node t.nodes).filterMap
      (sourceFile? (t.destination root) suffix) =
        t.nodes.filterMap (sourceFile? (t.destination root) suffix))
    (h : sourceFiles t root suffix = .ok files) :
    sourceFiles (t.set place node) root suffix = .ok files := by
  have hretains := FileTree.retains_set hplace node
  obtain ⟨hdirectory, hfiles⟩ := sourceFiles_eq_ok_iff.mp h
  refine sourceFiles_eq_ok_iff.mpr ⟨hretains.isDirectory hdirectory, ?_⟩
  rw [hretains.destination_eq, FileTree.set, hentries]
  exact hfiles

end Scan

/-- Loading sees nothing of a tree but the file. -/
theorem EventSchema.loadSpelled_congr {t u : FileTree} {p : Path} {content : List UInt8}
    (ht : t.read p = .ok content) (hu : u.read p = .ok content) (spelling : Text.Spelling)
    (types : TypeMap) : loadSpelled spelling types u p = loadSpelled spelling types t p := by
  have hhas : ∀ v : FileTree, v.read p = .ok content → v.has p = true := by
    intro v hv
    unfold FileTree.read at hv
    unfold FileTree.has
    cases hfind : v.find p with
    | error e => rw [hfind] at hv; exact nomatch hv
    | ok node => rfl
  unfold loadSpelled
  rw [hhas t ht, hhas u hu, ht, hu]

namespace Generation

variable {t u v made : FileTree} {s : Settings} {p : Path} {content : List UInt8}
  {files : List SourceFile} {schema : List UInt8}

/-- What a tree offers to a generation. -/
structure Offers (s : Settings) (t : FileTree) (files : List SourceFile) (schema : List UInt8) :
    Prop where
  /-- The source files. -/
  sources : Scan.sourceFiles t s.sources s.suffix = .ok files
  /-- The bytes of the event schema. -/
  events : t.read s.events = .ok schema

/-- Trees with one offer give one header. -/
theorem Offers.headerRendering_eq (ht : Offers s t files schema) (hu : Offers s u files schema) :
    headerRendering u s = headerRendering t s := by
  have hsurface : headerSurface u s = headerSurface t s :=
    Scan.surface_congr (hu.sources.trans ht.sources.symm)
  have hevents : EventSchema.load .header u s.events = EventSchema.load .header t s.events :=
    EventSchema.loadSpelled_congr ht.events hu.events .plain .header
  have hheader : header u s = header t s := by
    rw [header, header, hsurface, hevents]
  have hhalves : headerHalves? u s = headerHalves? t s := by
    funext h text
    rw [headerHalves?, headerHalves?,
      EventSchema.loadSpelled_congr ht.events hu.events .numbered .header]
  rw [headerRendering, headerRendering, hheader, hhalves]

/-- Trees with one offer give one documentation. -/
theorem Offers.docsRendering_eq (ht : Offers s t files schema) (hu : Offers s u files schema) :
    docsRendering u s = docsRendering t s := by
  have hsurface : docsSurface u s = docsSurface t s :=
    Scan.surface_congr (hu.sources.trans ht.sources.symm)
  unfold docsRendering
  rw [hsurface]

/-- What gives a header has an offer. -/
theorem exists_offers {r : Rendering} (h : (headerRendering t s).result = .ok r) :
    ∃ files schema, Offers s t files schema := by
  obtain ⟨made, hmade, -⟩ := Logged.result_bind_eq_ok_iff.mp h
  obtain ⟨surface, events, hsurface, hevents, -⟩ := header_eq_ok hmade
  have hfiles : ∃ files, Scan.sourceFiles t s.sources s.suffix = .ok files := by
    unfold headerSurface Scan.surface Scan.annotationLines at hsurface
    cases hsources : Scan.sourceFiles t s.sources s.suffix with
    | error fault => simp [hsources, Except.map, Logged.fail] at hsurface
    | ok files => exact ⟨files, rfl⟩
  have hschema : ∃ schema, t.read s.events = .ok schema := by
    unfold EventSchema.load EventSchema.loadSpelled at hevents
    split at hevents
    · simp at hevents
    · cases hread : t.read s.events with
      | error fault => simp [hread] at hevents
      | ok schema => exact ⟨schema, rfl⟩
  obtain ⟨files, hfiles⟩ := hfiles
  obtain ⟨schema, hschema⟩ := hschema
  exact ⟨files, schema, hfiles, hschema⟩

/-- A path leads neither to the event schema nor to a place of a source. -/
structure Apart (s : Settings) (t : FileTree) (p : Path) : Prop where
  /-- It does not lead to the event schema. -/
  events : t.destination p ≠ t.destination s.events
  /-- It does not lead to a place below the sources whose name ends with their suffix. -/
  sources : ∀ names, names ≠ [] → s.suffix.toList <:+ (names.getLastD "").toList →
    t.destination p ≠ t.destination s.sources ++ names

/-- Paths are apart where all paths have the same destinations. -/
theorem Apart.congr (h : Apart s t p) (hsame : ∀ q, u.destination q = t.destination q) :
    Apart s u p := by
  obtain ⟨hevents, hsources⟩ := h
  refine ⟨?_, ?_⟩
  · simpa only [hsame] using hevents
  · simpa only [hsame] using hsources

/-- Directories that are made are not offered. -/
theorem Offers.of_grows {way : Location → Prop} (h : Offers s t files schema)
    (hgrows : FileTree.Grows way t u) : Offers s u files schema := by
  induction hgrows with
  | refl => exact h
  | @add u place _ hnew _ ih =>
    have hfree : u.node? place ≠ some .directory := by simp [hnew]
    refine ⟨Scan.sourceFiles_set hfree ?_ ih.sources, FileTree.read_set hfree _ ih.events ?_⟩
    · -- The new entry stands at the end of the table, and it is no file.
      have hentry : Scan.sourceFile? (u.destination s.sources) s.suffix (place, .directory) =
          none := by
        rw [Option.eq_none_iff_forall_ne_some]
        intro f hf
        exact nomatch (Scan.sourceFile?_eq_some_iff.mp hf).2.1
      rw [FileTree.node?_of_ne_nil (FileTree.ne_nil_of_node? hfree)] at hnew
      rw [Keyed.put_of_get?_eq_none hnew, List.filterMap_append, List.filterMap_cons_none hentry,
        List.filterMap_nil, List.append_nil]
    · rintro rfl
      have hfile := (FileTree.read_eq_ok_iff.mp ih.events).2
      exact nomatch hnew.symm.trans hfile

/-- A file that is put at a place apart is not offered. -/
theorem Offers.of_set (h : Offers s t files schema) (hapart : Apart s t p)
    (hfree : t.node? (t.destination p) ≠ some .directory) :
    Offers s (t.set (t.destination p) (.file content)) files schema := by
  have hentry : ∀ node, Scan.sourceFile? (t.destination s.sources) s.suffix
      (t.destination p, node) = none := by
    intro node
    rw [Option.eq_none_iff_forall_ne_some]
    intro f hf
    obtain ⟨hplace, -, hne, hsource⟩ := Scan.sourceFile?_eq_some_iff.mp hf
    exact hapart.sources f.names hne (Scan.isSource_iff.mp hsource) hplace
  exact ⟨Scan.sourceFiles_set hfree (Keyed.filterMap_put hentry _ _) h.sources,
    FileTree.read_set hfree _ h.events hapart.events.symm⟩

/-- Writing apart from what is offered leaves the offer as it was. -/
theorem Offers.of_writes (h : Offers s t files schema) (hapart : Apart s t p)
    (hwrites : t.Writes p content made u) : Offers s u files schema := by
  have hretains := hwrites.grows.retains
  have hdestination := hretains.destination_eq p
  have hfree := hwrites.free
  rw [hwrites.eq_set]
  rw [← hdestination] at hfree ⊢
  exact (h.of_grows hwrites.grows).of_set (hapart.congr hretains.destination_eq) hfree

end Generation

end Bindery
