import Bindery.Proofs.FileTree
import Bindery.Proofs.Surface
import Bindery.Proofs.Text.Cut
import Bindery.Proofs.Text.Lines
import Bindery.Scan

/-!
# A scan reads the annotations of the sources and nothing else

The source files are told by where they stand in the tree, and their annotations by the lines of
their texts. A scan of files that are texts is a walk along these annotations: it ends at the first
one that fails, and otherwise the surface holds of every group and name the last record that was
read. A file that is no text keeps a scan from giving a surface.
-/

namespace Bindery.Scan

/-- The place of a marked line. -/
def source (l : MarkedLine) : Source := ⟨l.file.relative, l.number⟩

/-- The record that a marked line gives, with its reports. -/
def reading (settings : ScanSettings) (l : MarkedLine) : Logged Signature.Fault Record :=
  Signature.read settings.reading (some (source l)) l.text

/-- Some files are the source files below a place of a tree. -/
structure AreSources (t : FileTree) (place : Location) (suffix : String)
    (files : List SourceFile) : Prop where
  /-- They are the files below the place whose names end with the suffix. -/
  mem_iff : ∀ f, f ∈ files ↔ (place ++ f.names, Node.file f.content) ∈ t.nodes ∧
    f.names ≠ [] ∧ suffix.toList <:+ (f.names.getLastD "").toList
  /-- None is there twice, if none is there twice in the tree. -/
  nodup : t.nodes.Nodup → files.Nodup
  /-- They stand in the order of their paths. -/
  sorted : files.Pairwise fun a b => a.relative ≤ b.relative

/-- The annotations of a file that writes a text: the lines that start with the marker, under
their numbers. -/
def annotations (marker : String) (file : SourceFile) (text : String) : List MarkedLine :=
  (((Lines.ofText text.toList).zipIdx 1).filter fun (line, _) => marker.toList <+: line).map
    fun (line, number) => ⟨file, number, String.ofList line⟩

/-- Whether names are those of a source file is whether the last one ends with the suffix. -/
theorem isSource_iff {suffix : String} {names : Location} :
    isSource suffix names = true ↔ suffix.toList <:+ (names.getLastD "").toList := by
  rw [isSource, Text.endsWith, Text.isSome_dropFront?, List.reverse_prefix]

/-- A directory has source files. -/
theorem exists_sourceFiles {t : FileTree} {root : Path} {place : Location}
    (hplace : t.locate root = .ok place) (hdir : t.node? place = some .directory)
    (suffix : String) :
    ∃ files, sourceFiles t root suffix = .ok files ∧ AreSources t place suffix files := by
  unfold sourceFiles
  rw [hplace]
  dsimp only
  rw [hdir]
  refine ⟨_, rfl, ?_, ?_, ?_⟩
  · intro f
    obtain ⟨names, content⟩ := f
    simp [List.mem_mergeSort, FileTree.mem_filesBelow_iff, isSource_iff, and_assoc]
  · intro hnodes
    rw [(List.mergeSort_perm _ _).nodup_iff]
    refine ((FileTree.nodup_filesBelow hnodes place).filter _).map ?_
    rintro ⟨names, content⟩ ⟨names', content'⟩ h
    obtain ⟨rfl, rfl⟩ := SourceFile.mk.inj h
    rfl
  · refine (List.pairwise_mergeSort ?_ ?_ _).imp of_decide_eq_true
    · intro a b c hab hbc
      exact decide_eq_true (String.le_trans (of_decide_eq_true hab) (of_decide_eq_true hbc))
    · intro a b
      simpa using String.le_total a.relative b.relative

/-- Anything but a directory has no source files. -/
theorem sourceFiles_of_not_isDirectory {t : FileTree} {root : Path}
    (h : t.isDirectory root = false) (suffix : String) :
    sourceFiles t root suffix = .error (.noDirectory root) := by
  unfold sourceFiles
  unfold FileTree.isDirectory FileTree.find at h
  cases hplace : t.locate root with
  | error e => rfl
  | ok place =>
    rw [hplace] at h
    dsimp only at h ⊢
    cases hnode : t.node? place with
    | none => rfl
    | some node =>
      rw [hnode] at h
      cases node with
      | file content => rfl
      | directory => simp at h

/-- The marked lines among some lines are those that start with the marker, each under its number.
-/
theorem markedFrom_eq (marker : List Char) (file : SourceFile) (number : Nat)
    (lines : List (List Char)) :
    markedFrom marker file number lines =
      ((lines.zipIdx number).filter fun (line, _) => marker <+: line).map
        fun (line, number) => ⟨file, number, String.ofList line⟩ := by
  induction lines generalizing number with
  | nil => rfl
  | cons line lines ih =>
    rw [markedFrom, List.zipIdx_cons, List.filter_cons, ih]
    by_cases h : marker <+: line
    · simp [Text.isSome_dropFront?.mpr h, h]
    · simp [Text.dropFront?_eq_none_iff.mpr h, h]

/-- Files that write texts deliver the annotations of the texts, one file after another. -/
theorem markedLines_eq (root : Path) (marker : String) {files : List SourceFile}
    {text : SourceFile → String} (h : ∀ f ∈ files, f.content = Utf8.encode (text f)) :
    markedLines root marker files =
      ⟨files.flatMap fun f => annotations marker f (text f), none⟩ := by
  induction files with
  | nil => rfl
  | cons f files ih =>
    have hf := h f List.mem_cons_self
    have hfiles := ih fun g hg => h g (List.mem_cons_of_mem f hg)
    rw [markedLines, hf, Lines.ofBytes_encode, hfiles, markedFrom_eq]
    rfl

/-- A file that is no text ends the delivery with a fault. -/
theorem fault_markedLines_ne_none (root : Path) (marker : String) {files : List SourceFile}
    (h : ∃ f ∈ files, ∀ text, f.content ≠ Utf8.encode text) :
    (markedLines root marker files).fault ≠ none := by
  induction files with
  | nil => simp at h
  | cons f files ih =>
    rw [markedLines]
    cases hf : (Lines.ofBytes f.content).fault with
    | some fault => simp
    | none =>
      obtain ⟨text, htext⟩ := Lines.fault_ofBytes_eq_none_iff.mp hf
      obtain ⟨g, hg, hbad⟩ := h
      rcases List.mem_cons.mp hg with rfl | hrest
      · exact absurd htext (hbad text)
      · simpa [hf] using ih ⟨g, hrest, hbad⟩

/-- Every marked line is a line of one of the files, and starts with the marker. -/
theorem exists_line_of_mem_markedLines (root : Path) (marker : String) (files : List SourceFile) :
    ∀ l ∈ (markedLines root marker files).lines, ∃ file ∈ files,
      ∃ line ∈ (Lines.ofBytes file.content).lines,
        l.text = String.ofList line ∧ marker.toList <+: line := by
  have hfile : ∀ file : SourceFile,
      ∀ l ∈ markedFrom marker.toList file 1 (Lines.ofBytes file.content).lines,
        ∃ line ∈ (Lines.ofBytes file.content).lines,
          l.text = String.ofList line ∧ marker.toList <+: line := by
    intro file l hl
    rw [markedFrom_eq] at hl
    obtain ⟨⟨line, number⟩, hline, rfl⟩ := List.mem_map.mp hl
    obtain ⟨hmem, hmarked⟩ := List.mem_filter.mp hline
    exact ⟨line, List.fst_mem_of_mem_zipIdx hmem, rfl, of_decide_eq_true hmarked⟩
  induction files with
  | nil => simp [markedLines]
  | cons file files ih =>
    intro l hl
    have hfirst : l ∈ markedFrom marker.toList file 1 (Lines.ofBytes file.content).lines ∨
        l ∈ (markedLines root marker files).lines := by
      rw [markedLines] at hl
      cases hfault : (Lines.ofBytes file.content).fault with
      | some fault => exact .inl (by simpa [hfault] using hl)
      | none => exact List.mem_append.mp (by simpa [hfault] using hl)
    rcases hfirst with hhere | hlater
    · exact ⟨file, List.mem_cons_self, hfile file l hhere⟩
    · obtain ⟨other, hother, hline⟩ := ih l hlater
      exact ⟨other, List.mem_cons_of_mem file hother, hline⟩

/-- A surface holds what was read from some lines: every line gave a record, and of each group and
name the last record is there. -/
structure Collected (settings : ScanSettings) (lines : List MarkedLine) (s : Surface) : Prop where
  /-- The surface is well-formed. -/
  wellFormed : s.WellFormed
  /-- Every line gave a record, which carries the line's place. -/
  read : ∀ l ∈ lines, ∃ r, (reading settings l).result = .ok r ∧ r.source = some (source l)
  /-- A record is there exactly if no later one has its group and name. -/
  mem_iff : ∀ r, r ∈ s.toList ↔ ∃ before l after, lines = before ++ l :: after ∧
    (reading settings l).result = .ok r ∧
    ∀ l' ∈ after, ∀ r', (reading settings l').result = .ok r' → r'.key ≠ r.key

/-- A record carries the place of its line. -/
theorem source_of_reading {settings : ScanSettings} {l : MarkedLine} {r : Record}
    (h : (reading settings l).result = .ok r) : r.source = some (source l) := by
  unfold reading Signature.read at h
  split at h
  · simp [Logged.fail] at h
  · obtain rfl := Except.ok.inj h
    rfl

/-- Adding a line is reading it and then adding its record. -/
theorem addLine_eq (settings : ScanSettings) (s : Surface) (l : MarkedLine) :
    addLine settings s l = (reading settings l).mapError .line >>= fun r =>
      (s.add settings.duplicates r).mapError .duplicate := rfl

/-- A line whose record is added gave this record, and it was put. -/
theorem exists_reading_of_addLine {settings : ScanSettings} {s s' : Surface} {l : MarkedLine}
    (h : (addLine settings s l).result = .ok s') :
    ∃ r, (reading settings l).result = .ok r ∧ s' = s.put r := by
  rw [addLine_eq] at h
  cases hr : (reading settings l).result with
  | error fault =>
    rw [Logged.bind_of_error (Logged.result_mapError_of_error hr _)] at h
    simp at h
  | ok r =>
    rw [Logged.bind_of_ok (Logged.result_mapError_eq_ok_iff.mpr hr)] at h
    exact ⟨r, rfl, Surface.eq_put_of_add (Logged.result_mapError_eq_ok_iff.mp h)⟩

/-- A line that is no annotation fails under its own place. -/
theorem place_of_addLine {settings : ScanSettings} {s : Surface} {l : MarkedLine}
    {fault : Signature.Fault} (h : (addLine settings s l).result = .error (.line fault)) :
    fault.place = ⟨some l.file.relative, some (l.number : Int)⟩ := by
  rw [addLine_eq] at h
  cases hr : (reading settings l).result with
  | error found =>
    rw [Logged.bind_of_error (Logged.result_mapError_of_error hr _)] at h
    obtain rfl : found = fault := by simpa using h
    unfold reading Signature.read at hr
    split at hr
    · obtain rfl := Except.error.inj hr
      rfl
    · simp at hr
  | ok r =>
    rw [Logged.bind_of_ok (Logged.result_mapError_eq_ok_iff.mpr hr)] at h
    unfold Logged.mapError at h
    cases hadd : (s.add settings.duplicates r).result <;> simp [hadd, Except.mapError] at h

/-- One more line collects its record. -/
theorem Collected.addLine {settings : ScanSettings} {lines : List MarkedLine} {s s' : Surface}
    (h : Collected settings lines s) {l : MarkedLine}
    (hadd : (addLine settings s l).result = .ok s') : Collected settings (lines ++ [l]) s' := by
  obtain ⟨q, hq, rfl⟩ := exists_reading_of_addLine hadd
  refine ⟨h.wellFormed.put q, ?_, fun r => ?_⟩
  · intro l' hl'
    rcases List.mem_append.mp hl' with hold | hnew
    · exact h.read l' hold
    · obtain rfl := List.mem_singleton.mp hnew
      exact ⟨q, hq, source_of_reading hq⟩
  · rw [h.wellFormed.mem_toList_put, h.mem_iff]
    constructor
    · rintro (rfl | ⟨hkey, before, l', after, rfl, hr, hafter⟩)
      · exact ⟨lines, l, [], rfl, hq, by simp⟩
      · refine ⟨before, l', after ++ [l], by simp, hr, ?_⟩
        intro m hm r' hr'
        rcases List.mem_append.mp hm with hold | hnew
        · exact hafter m hold r' hr'
        · obtain rfl := List.mem_singleton.mp hnew
          obtain rfl := Except.ok.inj (hq.symm.trans hr')
          exact hkey
    · rintro ⟨before, l', after, hlines, hr, hafter⟩
      -- The line is the new one, or it stands before it.
      rcases List.eq_nil_or_concat after with rfl | ⟨rest, last, rfl⟩
      · obtain ⟨-, hl⟩ := List.append_inj' hlines rfl
        obtain rfl := List.singleton_inj.mp hl
        exact .inl (Except.ok.inj (hr.symm.trans hq))
      · rw [List.concat_eq_append, ← List.cons_append, ← List.append_assoc] at hlines
        obtain ⟨rfl, hl⟩ := List.append_inj' hlines rfl
        obtain rfl := List.singleton_inj.mp hl
        refine .inr ⟨hafter l (by simp) q hq, before, l', rest, rfl, hr, ?_⟩
        intro m hm
        exact hafter m (by simp [hm])

/-- Nothing is collected from no lines. -/
theorem Collected.empty (settings : ScanSettings) : Collected settings [] Surface.empty :=
  ⟨.empty, by simp, by simp [Surface.empty, Surface.toList]⟩

/-- A walk along some lines collects their records. -/
theorem Collected.walk {settings : ScanSettings} {lines : List MarkedLine} {s : Surface}
    (h : (lines.foldlM (Scan.addLine settings) Surface.empty).result = .ok s) :
    Collected settings lines s :=
  Logged.foldlM_induction (Collected.empty settings)
    (fun _ _ _ _ hdone hadd => hdone.addLine hadd) h

/-- A scan of some lines: it reads and adds them in order, and reports its totals at the end. -/
structure Scans (root : Path) (settings : ScanSettings) (lines : List MarkedLine)
    (x : Logged ScanFailure Surface) : Prop where
  /-- It is the walk along the lines, and the report. -/
  eq_walk : x = lines.foldlM (addLine settings) Surface.empty >>= fun s => ⟨[totals root s], .ok s⟩
  /-- A surface that it gives holds what was read from all lines. -/
  collected : ∀ s, x.result = .ok s → Collected settings lines s
  /-- If it fails, it fails at one line, after those before it were collected. One that is no
  annotation is named by its place. -/
  stopped : ∀ e, x.result = .error e → ∃ before l after s, lines = before ++ l :: after ∧
    (before.foldlM (addLine settings) Surface.empty).result = .ok s ∧
    Collected settings before s ∧ (addLine settings s l).result = .error e ∧
    x.log = (before.foldlM (addLine settings) Surface.empty).log ++ (addLine settings s l).log ∧
    ∀ fault, e = .line fault → fault.place = ⟨some l.file.relative, some (l.number : Int)⟩

/-- A walk along lines with a report at the end scans them. -/
theorem scans_walk (root : Path) (settings : ScanSettings) (lines : List MarkedLine) :
    Scans root settings lines
      (lines.foldlM (addLine settings) Surface.empty >>= fun s => ⟨[totals root s], .ok s⟩) := by
  refine ⟨rfl, fun s hs => ?_, fun e he => ?_⟩
  · cases hwalk : (lines.foldlM (addLine settings) Surface.empty).result with
    | error e =>
      simp [Logged.bind_of_error hwalk] at hs
    | ok found =>
      rw [Logged.bind_of_ok hwalk] at hs
      obtain rfl : found = s := Except.ok.inj hs
      exact .walk hwalk
  · cases hwalk : (lines.foldlM (addLine settings) Surface.empty).result with
    | error found =>
      rw [Logged.bind_of_error hwalk] at he ⊢
      obtain rfl : found = e := Except.error.inj he
      obtain ⟨before, l, after, s, hlines, hbefore, hl, hlog⟩ := Logged.foldlM_of_error hwalk
      refine ⟨before, l, after, s, hlines, hbefore, .walk hbefore, hl, hlog, ?_⟩
      rintro fault rfl
      exact place_of_addLine hl
    | ok s =>
      simp [Logged.bind_of_ok hwalk] at he

/-- A scan reads exactly the annotations of the source files below its root, in the order of their
paths and then of the lines. If some source file is no text it gives no surface. -/
theorem surface_reads_annotations (t : FileTree) (root : Path) (settings : ScanSettings) :
    (t.isDirectory root = false →
      surface t root settings = .fail (.sources (.noDirectory root))) ∧
    ∀ place, t.locate root = .ok place → t.node? place = some .directory →
      ∃ files, AreSources t place settings.suffix files ∧
        (∀ text : SourceFile → String, (∀ f ∈ files, f.content = Utf8.encode (text f)) →
          Scans root settings
            (files.flatMap fun f => annotations settings.reading.marker f (text f))
            (surface t root settings)) ∧
        ((∃ f ∈ files, ∀ text, f.content ≠ Utf8.encode text) →
          ∀ s, (surface t root settings).result ≠ .ok s) := by
  refine ⟨fun hroot => ?_, fun place hplace hdir => ?_⟩
  · unfold surface annotationLines
    rw [sourceFiles_of_not_isDirectory hroot]
    rfl
  · obtain ⟨files, hfiles, hsources⟩ := exists_sourceFiles hplace hdir settings.suffix
    refine ⟨files, hsources, fun text htext => ?_, fun hbad s hs => ?_⟩
    · have hsurface : surface t root settings =
          (files.flatMap fun f => annotations settings.reading.marker f (text f)).foldlM
            (addLine settings) Surface.empty >>= fun s => ⟨[totals root s], .ok s⟩ := by
        unfold surface annotationLines
        rw [hfiles, Except.map, markedLines_eq root _ htext]
      rw [hsurface]
      exact scans_walk root settings _
    · have hfault := fault_markedLines_ne_none root settings.reading.marker hbad
      obtain ⟨fault, hfault⟩ := Option.ne_none_iff_exists'.mp hfault
      unfold surface annotationLines at hs
      rw [hfiles, Except.map] at hs
      dsimp only at hs
      rw [hfault] at hs
      cases hwalk : ((markedLines root settings.reading.marker files).lines.foldlM
          (addLine settings) Surface.empty).result with
      | error e => simp [Logged.bind_of_error hwalk] at hs
      | ok found => simp [Logged.bind_of_ok hwalk, Logged.fail] at hs

end Bindery.Scan
