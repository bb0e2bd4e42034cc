import Bindery.Proofs.Scan.Annotations
import Bindery.Proofs.Text.Blank
import Bindery.Proofs.Text.Newline

/-!
# The marker is looked for twice

A line is chosen by the marker that it begins with. When it is read, the marker is looked for again,
and by then the blanks at both ends of the line are gone. A marker that begins with a blank is not
found a second time, and neither is one that ends with a blank where nothing but blanks follows. All
other markers are found. A marker that holds the end of a line does not matter, since no line begins
with it.
-/

namespace Bindery

namespace Signature

variable {how : Reading} {source : Option Source} {line : String}

/-- A line is turned away for not beginning with the marker. -/
def TurnsAway (how : Reading) (source : Option Source) (line : String) : Prop :=
  ∃ f, (read how source line).result = .error f ∧ f.defect = .unmarked how.marker

/-- Only a missing marker is reported as one. -/
theorem cut_eq_unmarked_iff {marker : String} {line : List Char} :
    cut marker.toList line = .error (.unmarked marker) ↔ ¬marker.toList <+: Text.strip line := by
  rw [← Text.dropFront?_eq_none_iff]
  unfold cut
  cases Text.dropFront? marker.toList (Text.strip line) with
  | none => simp
  | some content =>
    simp only [reduceCtorEq, iff_false]
    -- Each further cut fails with a defect of its own.
    repeat' split
    all_goals simp

/-- A line is turned away exactly if it does not begin with the marker once it is stripped. -/
theorem turnsAway_iff : TurnsAway how source line ↔
    ¬how.marker.toList <+: Text.strip line.toList := by
  rw [← cut_eq_unmarked_iff]
  unfold TurnsAway read
  cases cut how.marker.toList line.toList with
  | error defect => simp [Logged.fail]
  | ok parts => simp

end Signature

namespace Scan

variable {how : Signature.Reading}

/-- A line that begins with the marker is turned away exactly if the marker begins with a blank, or
ends with one and nothing but blanks follows in the line. -/
theorem turnsAway_iff_of_prefix {line : String} (h : how.marker.toList <+: line.toList)
    (source : Option Source) :
    Signature.TurnsAway how source line ↔
      (∃ c ∈ how.marker.toList.head?, Text.isBlank c = true) ∨
        (∃ c ∈ how.marker.toList.getLast?, Text.isBlank c = true) ∧
          ∀ c ∈ line.toList.drop how.marker.length, Text.isBlank c = true := by
  obtain ⟨rest, hrest⟩ := h
  have hdrop : line.toList.drop how.marker.length = rest := by
    rw [← hrest, ← String.length_toList, List.drop_left]
  rw [hdrop, Signature.turnsAway_iff, ← hrest, Text.prefix_strip_append_iff, not_and_or,
    not_or]
  simp

/-- No line that a scan chooses for the marker is turned away when it is read. -/
def MarkerFoundAgain (how : Signature.Reading) : Prop :=
  ∀ t root suffix listing, annotationLines t root suffix how.marker = .ok listing →
    ∀ l ∈ listing.lines, ∀ source, ¬Signature.TurnsAway how source l.text

/-- The lines that are chosen begin with the marker, and no end of a line stands in them. -/
theorem prefix_and_unbroken_of_mem {t : FileTree} {root : Path} {suffix marker : String}
    {listing : Listing} (h : annotationLines t root suffix marker = .ok listing) {l : MarkedLine}
    (hl : l ∈ listing.lines) : marker.toList <+: l.text.toList ∧ Lines.Unbroken l.text.toList := by
  unfold annotationLines at h
  cases hfiles : sourceFiles t root suffix with
  | error fault => simp [hfiles, Except.map] at h
  | ok files =>
    rw [hfiles] at h
    obtain rfl := Except.ok.inj h
    obtain ⟨file, -, line, hline, htext, hmarked⟩ :=
      exists_line_of_mem_markedLines root marker files l hl
    rw [htext, String.toList_ofList]
    exact ⟨hmarked, Lines.unbroken_ofBytes file.content line hline⟩

/-- A source file of one line. -/
def lineFile (line : String) : SourceFile := ⟨["APIs.cpp"], Utf8.encode line⟩

/-- A tree with this source file alone. -/
def lineTree (line : String) : FileTree :=
  ⟨[(["src"], .directory), ("src" :: (lineFile line).names, .file (lineFile line).content)], []⟩

/-- The line is chosen if it begins with the marker. -/
theorem annotationLines_lineTree {marker line : String} (hmarked : marker.toList <+: line.toList)
    (hline : Lines.Unbroken line.toList) (hne : line ≠ "") :
    annotationLines (lineTree line) (.below ["src"]) "APIs.cpp" marker =
      .ok ⟨[⟨lineFile line, 1, line⟩], none⟩ := by
  have hfiles : sourceFiles (lineTree line) (.below ["src"]) "APIs.cpp" =
      .ok ([lineFile line].mergeSort fun a b => decide (a.relative ≤ b.relative)) := rfl
  have hlines : Lines.ofText line.toList = [line.toList] :=
    Lines.ofText_of_unbroken hline (by simpa using hne)
  have hcontent : ∀ f ∈ [lineFile line], f.content = Utf8.encode ((fun _ => line) f) := by
    simp [lineFile]
  rw [annotationLines, hfiles, List.mergeSort_singleton, Except.map, markedLines_eq _ _ hcontent]
  simp [annotations, hlines, hmarked]

/-- The marker is looked for in a line as it stands, and again in the line without the blanks at its
ends. A line that is chosen is turned away exactly if the marker begins with a blank, or ends with
one and nothing but blanks follows. So the two agree for a marker exactly if it has no blank at its
ends, or has an end of a line in it, so that no line is chosen. -/
theorem markerFoundAgain_iff (how : Signature.Reading) :
    (∀ t root suffix listing, annotationLines t root suffix how.marker = .ok listing →
      ∀ l ∈ listing.lines, ∀ source, Signature.TurnsAway how source l.text ↔
        (∃ c ∈ how.marker.toList.head?, Text.isBlank c = true) ∨
          (∃ c ∈ how.marker.toList.getLast?, Text.isBlank c = true) ∧
            ∀ c ∈ l.text.toList.drop how.marker.length, Text.isBlank c = true) ∧
    (MarkerFoundAgain how ↔
      Text.strip how.marker.toList = how.marker.toList ∨
        ¬Lines.Unbroken how.marker.toList) := by
  refine ⟨fun t root suffix listing h l hl source => ?_, fun hfound => ?_, ?_⟩
  · exact turnsAway_iff_of_prefix (prefix_and_unbroken_of_mem h hl).1 source
  · refine or_iff_not_imp_right.mpr fun hmarker => ?_
    rw [not_not] at hmarker
    by_cases hne : how.marker = ""
    · simp [hne]
    · -- The marker alone is a line that is chosen for it.
      have hchosen := annotationLines_lineTree (List.prefix_refl _) hmarker hne
      have hkept := hfound _ _ _ _ hchosen _ (List.mem_singleton_self _) none
      rw [Signature.turnsAway_iff, not_not] at hkept
      have hle := (Text.strip_isInfix how.marker.toList).length_le
      exact (hkept.eq_of_length_le hle).symm
  · rintro hmarker t root suffix listing h l hl source haway
    obtain ⟨hmarked, hunbroken⟩ := prefix_and_unbroken_of_mem h hl
    rcases hmarker with hself | hbroken
    · obtain ⟨rest, hrest⟩ := hmarked
      obtain ⟨hhead, hlast⟩ := Text.strip_eq_self_iff.mp hself
      rw [Signature.turnsAway_iff, ← hrest] at haway
      exact haway (Text.prefix_strip_append_iff.mpr ⟨hhead, .inl hlast⟩)
    · have hsub := hmarked.subset
      exact hbroken ⟨fun hr => hunbroken.1 (hsub hr), fun hn => hunbroken.2 (hsub hn)⟩

/-- Reading with a marker that has a blank in front. -/
def blankReading : Signature.Reading := { marker := " OMP_CAPI(" }

/-- A line that begins with this marker. -/
def blankLine : String := " OMP_CAPI(Core_TickCount, uint32_t())"

/-- The line is chosen for the marker, and turned away for not beginning with it. -/
theorem blankLine_is_turned_away :
    annotationLines (lineTree blankLine) (.below ["src"]) "APIs.cpp" blankReading.marker =
      .ok ⟨[⟨lineFile blankLine, 1, blankLine⟩], none⟩ ∧
    (Signature.read blankReading (some ⟨"APIs.cpp", 1⟩) blankLine).result =
      .error ⟨.unmarked blankReading.marker, ⟨some "APIs.cpp", some 1⟩⟩ ∧
    ¬MarkerFoundAgain blankReading := by
  have hmarked : blankReading.marker.toList <+: blankLine.toList := by decide
  have hchosen := annotationLines_lineTree hmarked ⟨by decide, by decide⟩ (by decide)
  have hcut : Signature.cut blankReading.marker.toList blankLine.toList =
      .error (.unmarked blankReading.marker) :=
    Signature.cut_eq_unmarked_iff.mpr (by decide)
  have haway : (Signature.read blankReading (some ⟨"APIs.cpp", 1⟩) blankLine).result =
      .error ⟨.unmarked blankReading.marker, ⟨some "APIs.cpp", some 1⟩⟩ := by
    rw [Signature.read, hcut]
    rfl
  refine ⟨hchosen, haway, fun hfound => ?_⟩
  exact hfound _ _ _ _ hchosen _ (List.mem_singleton_self _) _ ⟨_, haway, rfl⟩

end Scan

end Bindery
