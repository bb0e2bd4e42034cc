import Bindery.Proofs.Generation.Frame
import Bindery.Proofs.Generation.Inputs

/-!
# Regeneration

A generation that succeeded can be run again: it succeeds with the same report and leaves the tree
as it is, since what it reads is still there and what it writes is there already. Two trees that
agree on what is read come out with the same files.
-/

namespace Bindery

namespace Generation

variable {t u : FileTree} {s : Settings} {files files' : List SourceFile}
  {schema schema' : List UInt8}

/-- Two trees agree on what a generation reads. -/
structure Agree (s : Settings) (t u : FileTree) : Prop where
  /-- The reader stands in one place. -/
  workingDirectory_eq : u.workingDirectory = t.workingDirectory
  /-- Below the sources the same files are there whose names end with their suffix. -/
  sources : ∀ names, names ≠ [] → s.suffix.toList <:+ (names.getLastD "").toList →
    u.fileAt? (t.destination s.sources ++ names) = t.fileAt? (t.destination s.sources ++ names)
  /-- The event schema is the same. -/
  events : u.fileAt? (t.destination s.events) = t.fileAt? (t.destination s.events)

/-- In trees that agree paths have the same destinations. -/
theorem Agree.destination_eq (h : Agree s t u) (p : Path) : u.destination p = t.destination p := by
  unfold FileTree.destination FileTree.start
  rw [h.workingDirectory_eq]

/-- The source files that a well-formed tree offers are the selection. -/
theorem Offers.selected (h : Offers s t files schema) (ht : t.WellFormed) :
    t.isDirectory s.sources = true ∧ Scan.Selected t s.sources s.suffix files := by
  obtain ⟨hdirectory, -⟩ := Scan.sourceFiles_eq_ok_iff.mp h.sources
  obtain ⟨found, hfound, hselected⟩ := Scan.exists_selected ht hdirectory s.suffix
  obtain rfl := Except.ok.inj (hfound.symm.trans h.sources)
  exact ⟨hdirectory, hselected⟩

/-- Trees that agree have one offer. -/
theorem Agree.offers (h : Agree s t u) (ht : t.WellFormed) (hu : u.WellFormed)
    (hoffer : Offers s t files schema) (hoffer' : Offers s u files' schema') :
    Offers s u files schema := by
  have hfiles : files = files' := by
    obtain ⟨hdirectory, hselected⟩ := hoffer.selected ht
    obtain ⟨hdirectory', hselected'⟩ := hoffer'.selected hu
    exact hselected.unique
      (hselected'.congr hdirectory hdirectory' (h.destination_eq s.sources) h.sources)
  have hschema : schema = schema' := by
    have hfile := (FileTree.read_eq_ok_iff.mp hoffer.events).2
    have hfile' := (FileTree.read_eq_ok_iff.mp hoffer'.events).2
    have hsame := h.events
    rw [h.destination_eq] at hfile'
    unfold FileTree.fileAt? at hsame
    rw [hfile, hfile'] at hsame
    exact (Option.some.inj hsame).symm
  rw [hfiles, hschema]
  exact hoffer'

variable {middle : FileTree} {header docs : Rendering}

/-- A generation of both files that succeeds: the header is rendered from the tree and written,
and the documentation is rendered from the tree that this leaves and written. -/
structure Generates (s : Settings) (t middle u : FileTree) (header docs : Rendering) : Prop where
  /-- The header is rendered. -/
  headerRendered : (headerRendering t s).result = .ok header
  /-- It has no halves of surrogate pairs. -/
  headerWhole : header.halves = none
  /-- The header is written. -/
  headerWritten : t.writeBelow s.header header.content = (middle, .ok ())
  /-- The documentation is rendered. -/
  docsRendered : (docsRendering middle s).result = .ok docs
  /-- The documentation is written. -/
  docsWritten : middle.writeBelow s.docs docs.content = (u, .ok ())

/-- What a generation reports that writes both files. -/
def reportOf (s : Settings) (t middle : FileTree) (header docs : Rendering) :
    Logged Failure (List Written) :=
  ⟨(headerRendering t s).log ++ [header.totals] ++ ((docsRendering middle s).log ++ [docs.totals]),
    .ok [⟨s.header, header.records⟩, ⟨s.docs, docs.records⟩]⟩

/-- A generation that succeeds leaves what was written and reports it. -/
theorem Generates.writeAll_eq (h : Generates s t middle u header docs) :
    writeAll t s = (u, reportOf s t middle header docs) := by
  have hfirst : writeHeader t s =
      (middle, ⟨(headerRendering t s).log ++ [header.totals], .ok ⟨s.header, header.records⟩⟩) := by
    rw [writeHeader_eq_produce]
    exact produce_of_written h.headerRendered h.headerWhole h.headerWritten
  have hsecond : writeDocumentation middle s =
      (u, ⟨(docsRendering middle s).log ++ [docs.totals], .ok ⟨s.docs, docs.records⟩⟩) := by
    rw [writeDocumentation_eq_produce]
    exact produce_of_written h.docsRendered (halves_docsRendering h.docsRendered) h.docsWritten
  have hheader := congrArg (fun outcome => outcome.2.result) hfirst
  rw [writeAll_of_ok hheader, hfirst]
  dsimp only
  rw [hsecond]
  rfl

/-- A generation of both files succeeds only so. -/
theorem exists_generates {ws : List Written} (h : (writeAll t s).2.result = .ok ws) :
    ∃ middle header docs, Generates s t middle (writeAll t s).1 header docs := by
  cases hfirst : (writeHeader t s).2.result with
  | error e =>
    rw [writeAll_of_error hfirst] at h
    exact nomatch h
  | ok first =>
    rw [writeAll_of_ok hfirst] at h ⊢
    dsimp only at h ⊢
    cases hsecond : (writeDocumentation (writeHeader t s).1 s).2.result with
    | error e =>
      rw [hsecond] at h
      exact nomatch h
    | ok second =>
      rw [writeDocumentation_eq_produce] at hsecond ⊢
      obtain ⟨docs, hdocs, -, hdocsWritten⟩ := exists_written_of_produce hsecond
      rw [writeHeader_eq_produce] at hfirst hdocs hdocsWritten ⊢
      obtain ⟨header, hheader, hwhole, hheaderWritten⟩ := exists_written_of_produce hfirst
      exact ⟨_, header, docs, hheader, hwhole, hheaderWritten, hdocs, hdocsWritten⟩

/-- What is offered stays offered along a generation that writes apart from it. -/
theorem Generates.offers (h : Generates s t middle u header docs) (hheader : Apart s t s.header)
    (hdocs : Apart s t s.docs) (hoffer : Offers s t files schema) :
    Offers s middle files schema ∧ Offers s u files schema := by
  obtain ⟨_, hfirst⟩ := FileTree.exists_writes h.headerWritten
  obtain ⟨_, hsecond⟩ := FileTree.exists_writes h.docsWritten
  have hmiddle := hoffer.of_writes hheader hfirst
  exact ⟨hmiddle, hmiddle.of_writes (hdocs.congr hfirst.retains.destination_eq) hsecond⟩

/-- After a generation apart from what it reads another one renders the same, and writes over both
files what they hold. -/
theorem Generates.again (h : Generates s t middle u header docs) (hheader : Apart s t s.header)
    (hdocs : Apart s t s.docs) (hoffer : Offers s t files schema) :
    ∃ between, Generates s u between u header docs ∧
      reportOf s u between header docs = reportOf s t middle header docs := by
  obtain ⟨hofferMiddle, hofferAfter⟩ := h.offers hheader hdocs hoffer
  obtain ⟨_, hfirst⟩ := FileTree.exists_writes h.headerWritten
  obtain ⟨_, hsecond⟩ := FileTree.exists_writes h.docsWritten
  obtain ⟨hagain, hagain'⟩ := hfirst.both_again hsecond
  -- What the second header leaves still offers the same to the documentation.
  have hofferBetween : Offers s (u.set (t.destination s.header) (.file header.content)) files
      schema := by
    have hsame := (hfirst.retains.trans hsecond.retains).destination_eq
    rw [← hsame s.header]
    refine hofferAfter.of_set (hheader.congr hsame) ?_
    rw [hsame, hfirst.node?_first hsecond]
    simp
  have hheaderRendering := hoffer.headerRendering_eq hofferAfter
  have hdocsRendering := hofferMiddle.docsRendering_eq hofferBetween
  refine ⟨_, ⟨?_, h.headerWhole, hagain, ?_, hagain'⟩, ?_⟩
  · rw [hheaderRendering, h.headerRendered]
  · rw [hdocsRendering, h.docsRendered]
  · rw [reportOf, reportOf, hheaderRendering, hdocsRendering]

/-- After a generation both files are read at their paths, where one may stand over the other. -/
theorem Generates.read_eq (h : Generates s t middle u header docs) :
    u.read s.docs = .ok docs.content ∧
      u.read s.header = .ok (if t.destination s.header = t.destination s.docs then docs.content
        else header.content) := by
  obtain ⟨_, hfirst⟩ := FileTree.exists_writes h.headerWritten
  obtain ⟨_, hsecond⟩ := FileTree.exists_writes h.docsWritten
  exact ⟨hsecond.read_eq, hfirst.read_first hsecond⟩

/-- A generation apart from what it reads can be run again, which gives the same results and report
and leaves the tree as it is. Trees that agree on what is read, wherever else they differ, are left
with the same header and the same documentation by generations that succeed. -/
theorem regeneration_depends_on_inputs (t : FileTree) (s : Settings)
    (hheader : Apart s t s.header) (hdocs : Apart s t s.docs) :
    (∀ ws, (writeAll t s).2.result = .ok ws → writeAll (writeAll t s).1 s = writeAll t s) ∧
    ∀ u, t.WellFormed → u.WellFormed → Agree s t u → ∀ ws ws',
      (writeAll t s).2.result = .ok ws → (writeAll u s).2.result = .ok ws' →
      ∃ header docs, (writeAll t s).1.read s.header = .ok header ∧
        (writeAll u s).1.read s.header = .ok header ∧
        (writeAll t s).1.read s.docs = .ok docs ∧ (writeAll u s).1.read s.docs = .ok docs := by
  refine ⟨fun ws hws => ?_, fun u ht hu hagree ws ws' hws hws' => ?_⟩
  · obtain ⟨middle, header, docs, hrun⟩ := exists_generates hws
    obtain ⟨files, schema, hoffer⟩ := exists_offers hrun.headerRendered
    obtain ⟨between, hagain, hreport⟩ := hrun.again hheader hdocs hoffer
    rw [hagain.writeAll_eq, hreport, ← hrun.writeAll_eq]
  · obtain ⟨middle, header, docs, hrun⟩ := exists_generates hws
    obtain ⟨middle', header', docs', hrun'⟩ := exists_generates hws'
    obtain ⟨files, schema, hoffer⟩ := exists_offers hrun.headerRendered
    obtain ⟨files', schema', hofferu⟩ := exists_offers hrun'.headerRendered
    have hsame := hagree.offers ht hu hoffer hofferu
    have hheaderSame : header' = header := by
      have hrendered := hrun'.headerRendered
      rw [hoffer.headerRendering_eq hsame, hrun.headerRendered] at hrendered
      exact (Except.ok.inj hrendered).symm
    have hdocsSame : docs' = docs := by
      have hmiddle := (hrun.offers hheader hdocs hoffer).1
      have hmiddle' := (hrun'.offers (hheader.congr hagree.destination_eq)
        (hdocs.congr hagree.destination_eq) hsame).1
      have hrendered := hrun'.docsRendered
      rw [hmiddle.docsRendering_eq hmiddle', hrun.docsRendered] at hrendered
      exact (Except.ok.inj hrendered).symm
    subst hheaderSame hdocsSame
    obtain ⟨hreadDocs, hreadHeader⟩ := hrun.read_eq
    obtain ⟨hreadDocs', hreadHeader'⟩ := hrun'.read_eq
    rw [hagree.destination_eq, hagree.destination_eq] at hreadHeader'
    exact ⟨_, _, hreadHeader, hreadHeader', hreadDocs, hreadDocs'⟩

/-- Settings with outputs that overlap with the sources: the documentation stands beside them, and
the path of the header leads through their directory. -/
def overlappingSettings : Settings where
  sources := .below ["src"]
  events := .below ["events.json"]
  header := .below ["src", "..", "out", "ompcapi.h"]
  docs := .below ["src", "api.json"]

/-- The small tree with a header that somebody has edited. -/
def editedTree : FileTree := ⟨sampleTree.nodes ++ [(["out"], .directory),
  (["out", "ompcapi.h"], .file (Utf8.encode "edited"))], []⟩

/-- The small tree can be generated from again, and the edited header comes out as the one of the
tree without it. -/
theorem regeneration_of_edited_tree :
    Apart overlappingSettings sampleTree overlappingSettings.header ∧
    Apart overlappingSettings sampleTree overlappingSettings.docs ∧
    (writeAll (writeAll sampleTree overlappingSettings).1 overlappingSettings =
      writeAll sampleTree overlappingSettings) ∧
    sampleTree.WellFormed ∧ editedTree.WellFormed ∧
    Agree overlappingSettings sampleTree editedTree ∧
    ∃ header docs,
      (writeAll sampleTree overlappingSettings).1.read overlappingSettings.header = .ok header ∧
      (writeAll editedTree overlappingSettings).1.read overlappingSettings.header = .ok header ∧
      (writeAll sampleTree overlappingSettings).1.read overlappingSettings.docs = .ok docs ∧
      (writeAll editedTree overlappingSettings).1.read overlappingSettings.docs = .ok docs := by
  have hheader : Apart overlappingSettings sampleTree overlappingSettings.header := by
    have hdestination :
        sampleTree.destination overlappingSettings.header = ["out", "ompcapi.h"] := by
      decide
    refine ⟨by decide, fun names _ _ => ?_⟩
    rw [hdestination]
    exact fun heq => absurd (List.cons.inj heq).1 (by decide)
  have hdocs : Apart overlappingSettings sampleTree overlappingSettings.docs := by
    have hdestination : sampleTree.destination overlappingSettings.docs = ["src", "api.json"] := by
      decide
    refine ⟨by decide, fun names _ hsuffix => ?_⟩
    rw [hdestination]
    intro heq
    obtain rfl : ["api.json"] = names := (List.cons.inj heq).2
    exact absurd hsuffix (by decide)
  have hagree : Agree overlappingSettings sampleTree editedTree := by
    refine ⟨rfl, fun names _ _ => ?_, by decide +kernel⟩
    have hdestination : sampleTree.destination overlappingSettings.sources = ["src"] := by decide
    rw [hdestination]
    simp [FileTree.fileAt?, FileTree.node?, editedTree, sampleTree, Keyed.get?]
  have hwell : sampleTree.WellFormed := ⟨by decide, by decide⟩
  have hedited : editedTree.WellFormed := ⟨by decide, by decide⟩
  have hrun : (writeAll sampleTree overlappingSettings).2.result.toOption =
      some [⟨overlappingSettings.header, 1⟩, ⟨overlappingSettings.docs, 1⟩] := by
    decide +kernel
  have hrun' : (writeAll editedTree overlappingSettings).2.result.toOption =
      some [⟨overlappingSettings.header, 1⟩, ⟨overlappingSettings.docs, 1⟩] := by
    decide +kernel
  obtain ⟨hagain, hsame⟩ :=
    regeneration_depends_on_inputs sampleTree overlappingSettings hheader hdocs
  exact ⟨hheader, hdocs, hagain _ (Logged.eq_ok_of_toOption hrun), hwell, hedited, hagree,
    hsame editedTree hwell hedited hagree _ _ (Logged.eq_ok_of_toOption hrun)
      (Logged.eq_ok_of_toOption hrun')⟩

end Generation

end Bindery
