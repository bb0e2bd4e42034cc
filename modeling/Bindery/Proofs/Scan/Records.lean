import Bindery.Proofs.Scan.Annotations
import Bindery.Proofs.Signature.Grammar
import Bindery.Proofs.Signature.RoundTrip
import Bindery.Proofs.Surface.History
import Bindery.Proofs.Text.Newline

/-!
# What records of a scan cannot hold

Every record of a scan comes from one line. No line feed stands in it, no underscore in its group
and no opening parenthesis in its return type, since the line was cut at the first of these. Types
that are respelled keep to this, since no spelling of the header holds such a character.
-/

namespace Bindery

/-- No spelling of a type map has a character. -/
def TypeMap.Avoids (types : TypeMap) (c : Char) : Prop := ∀ e ∈ types.table, c ∉ e.2.toList

instance (types : TypeMap) (c : Char) : Decidable (types.Avoids c) :=
  inferInstanceAs (Decidable (∀ e ∈ types.table, c ∉ e.2.toList))

/-- A character that no spelling has does not come in with a spelling. -/
theorem TypeMap.not_mem_normalize {types : TypeMap} {c : Char} (h : types.Avoids c)
    {written : String} (hc : c ∉ written.toList) : c ∉ (types.normalize written).toList := by
  have hstripped : c ∉ (Text.stripped written).toList := by
    rw [Text.toList_stripped]
    exact fun hmem => hc ((Text.strip_isInfix _).subset hmem)
  rw [normalize, spelling]
  cases hfound : Keyed.get? (Text.stripped written) types.table with
  | none => exact hstripped
  | some spelling => exact h _ (Keyed.mem_of_get?_eq_some hfound)

namespace Signature

variable {types : TypeMap} {c : Char}

/-- What a parameter is read from has all its characters. -/
theorem not_mem_of_read? (h : types.Avoids c) {part : List Char} (hc : c ∉ part) {q : Parameter}
    (hq : Parameter.read? types part = some q) : c ∉ q.type.toList ∧ c ∉ q.name.toList := by
  have hstrip : c ∉ Text.strip part := fun hmem => hc ((Text.strip_isInfix part).subset hmem)
  unfold Parameter.read? at hq
  dsimp only at hq
  split at hq
  · exact nomatch hq
  · obtain rfl := Option.some.inj hq
    constructor
    · refine TypeMap.not_mem_normalize h ?_
      rw [String.toList_ofList]
      exact fun hmem => hstrip ((List.takeWhile_sublist _).subset hmem)
    · rw [String.toList_ofList]
      intro hmem
      exact hstrip ((List.dropWhile_sublist _).subset ((List.dropWhile_sublist _).subset hmem))

/-- A character that is not in a parameter list is in none of its parameters. -/
theorem not_mem_of_mem_parameters (h : types.Avoids c) {text : List Char} (hc : c ∉ text)
    {q : Parameter} (hq : q ∈ parameters types text) : c ∉ q.type.toList ∧ c ∉ q.name.toList := by
  rw [parameters_eq_split] at hq
  obtain ⟨part, hpart, hread⟩ := List.mem_filterMap.mp hq
  exact not_mem_of_read? h (fun hmem => hc ((isInfix_of_mem_splitFrom hpart).subset hmem)) hread

end Signature

/-- A record as a line gives it: nothing that the line was cut at is left in the parts. -/
structure Record.CutFromLine (r : Record) : Prop where
  /-- The group ends at the first underscore. -/
  group_cut : '_' ∉ r.group.toList
  /-- The return type ends at the first parenthesis. -/
  returns_cut : '(' ∉ r.returns.toList
  /-- The return type stands in one line. -/
  returns_line : '\n' ∉ r.returns.toList
  /-- The parameters stand in one line. -/
  parameters_line : ∀ p ∈ r.parameters, '\n' ∉ p.type.toList ∧ '\n' ∉ p.name.toList
  /-- The symbol stands in one line. -/
  symbol_line : '\n' ∉ r.symbol.toList

namespace Scan

variable {settings : ScanSettings}

/-- Marked lines are lines. -/
theorem feed_not_mem_markedLines (root : Path) (marker : String) (files : List SourceFile) :
    ∀ l ∈ (markedLines root marker files).lines, '\n' ∉ l.text.toList := by
  intro l hl
  obtain ⟨file, -, line, hline, htext, -⟩ := exists_line_of_mem_markedLines root marker files l hl
  rw [htext, String.toList_ofList]
  exact (Lines.unbroken_ofBytes file.content line hline).2

/-- A line gives a record without what the line is cut at. -/
theorem cutFromLine_of_reading (htypes : settings.reading.types.Avoids '(')
    (hfeeds : settings.reading.types.Avoids '\n') {l : MarkedLine} (hl : '\n' ∉ l.text.toList)
    {r : Record} (hr : (reading settings l).result = .ok r) : r.CutFromLine := by
  obtain ⟨parts, hcut, rfl⟩ := Signature.result_read_eq_ok_iff_cut.mp hr
  obtain ⟨a, ha, rfl⟩ := Signature.cut_eq_ok_iff.mp hcut
  -- The pieces of the annotation are pieces of the line.
  have hline : '\n' ∉ Text.strip l.text.toList :=
    fun hmem => hl ((Text.strip_isInfix _).subset hmem)
  rw [ha.text_eq] at hline
  simp only [List.mem_append, not_or] at hline
  obtain ⟨⟨⟨⟨⟨⟨⟨-, hfull⟩, -⟩, hreturns⟩, -⟩, hparameters⟩, -⟩, -⟩ := hline
  have hstrip : ∀ {c : Char} {cs : List Char}, c ∉ cs →
      c ∉ (String.ofList (Text.strip cs)).toList := by
    intro c cs hc
    rw [String.toList_ofList]
    exact fun hmem => hc ((Text.strip_isInfix cs).subset hmem)
  refine ⟨?_, ?_, ?_, ?_, ?_⟩
  · simpa [Signature.Parts.record, Signature.Annotation.parts] using ha.group_cut
  · exact TypeMap.not_mem_normalize htypes (hstrip ha.returns_cut)
  · exact TypeMap.not_mem_normalize hfeeds (hstrip hreturns)
  · exact fun p hp => Signature.not_mem_of_mem_parameters hfeeds hparameters hp
  · exact hstrip hfull

/-- A surface that a scan gives holds what was added to it, and this was read from lines. -/
theorem exists_follows_of_surface {t : FileTree} {root : Path} {s : Surface}
    (h : (surface t root settings).result = .ok s) :
    ∃ added, s.Follows added ∧ ∀ r ∈ added, ∃ l : MarkedLine, '\n' ∉ l.text.toList ∧
      (reading settings l).result = .ok r := by
  unfold surface annotationLines at h
  cases hfiles : sourceFiles t root settings.suffix with
  | error fault => simp [hfiles, Except.map, Logged.fail] at h
  | ok files =>
    rw [hfiles, Except.map] at h
    dsimp only at h
    have hlines := feed_not_mem_markedLines root settings.reading.marker files
    generalize markedLines root settings.reading.marker files = listing at h hlines
    cases hwalk : (listing.lines.foldlM (addLine settings) Surface.empty).result with
    | error e => simp [Logged.bind_of_error hwalk] at h
    | ok found =>
      rw [Logged.bind_of_ok hwalk] at h
      have hwhole : found = s := by
        cases hfault : listing.fault with
        | some fault => simp [hfault, Logged.fail] at h
        | none => simpa [hfault] using h
      subst hwhole
      have hadded : ∃ added, found.Follows added ∧ ∀ r ∈ added, ∃ l ∈ listing.lines,
          (reading settings l).result = .ok r := by
        refine Logged.foldlM_induction (motive := fun done s => ∃ added, s.Follows added ∧
          ∀ r ∈ added, ∃ l ∈ done, (reading settings l).result = .ok r)
          ⟨[], .empty, by simp⟩ ?_ hwalk
        rintro done l s s' ⟨added, hs, hread⟩ hadd
        obtain ⟨r, hr, rfl⟩ := exists_reading_of_addLine hadd
        refine ⟨added ++ [r], hs.put r, fun q hq => ?_⟩
        rcases List.mem_append.mp hq with hold | hnew
        · obtain ⟨l', hl', hq'⟩ := hread q hold
          exact ⟨l', List.mem_append_left _ hl', hq'⟩
        · obtain rfl := List.mem_singleton.mp hnew
          exact ⟨l, List.mem_append_right _ (List.mem_singleton_self l), hr⟩
      obtain ⟨added, hs, hread⟩ := hadded
      refine ⟨added, hs, fun r hr => ?_⟩
      obtain ⟨l, hl, hok⟩ := hread r hr
      exact ⟨l, hlines l hl, hok⟩

end Scan

/-- What stands on a surface was added to it. -/
theorem Surface.Follows.mem_of_mem_toList {s : Surface} {added : List Record} (h : s.Follows added)
    {r : Record} (hr : r ∈ s.toList) : r ∈ added := by
  have hfound := h.wellFormed.get?_eq_some_iff.mpr ⟨hr, rfl⟩
  rw [h.get?_eq, latest?] at hfound
  exact List.mem_of_mem_filter (List.mem_of_getLast? hfound)

/-- Every group of a surface came with a record that was added. -/
theorem Surface.Follows.exists_of_mem_groupNames {s : Surface} {added : List Record}
    (h : s.Follows added) {group : String} (hg : group ∈ s.groupNames) :
    ∃ r ∈ added, r.group = group := by
  rw [h.groupNames_eq, List.mem_eraseDups] at hg
  exact List.mem_map.mp hg

/-- A surface as the header takes it: it is well-formed, and its groups and records are cut from
lines. -/
structure Surface.CutFromLines (s : Surface) : Prop where
  /-- The surface is well-formed. -/
  wellFormed : s.WellFormed
  /-- No group has an underscore. -/
  group_cut : ∀ group ∈ s.groupNames, '_' ∉ group.toList
  /-- The records are cut from lines. -/
  records : ∀ r ∈ s.toList, r.CutFromLine

/-- A scan with the spellings of the header gives such a surface. -/
theorem Scan.cutFromLines_of_surface {t : FileTree} {root : Path} {suffix marker : String}
    {flat : Bool} {duplicates : Duplicates} {s : Surface}
    (h : (surface t root ⟨suffix, ⟨.header, flat, marker⟩, duplicates⟩).result = .ok s) :
    s.CutFromLines := by
  obtain ⟨added, hs, hread⟩ := exists_follows_of_surface h
  have hcut : ∀ r ∈ added, r.CutFromLine := by
    intro r hr
    obtain ⟨l, hl, hok⟩ := hread r hr
    have hparens : TypeMap.header.Avoids '(' := by decide
    have hfeeds : TypeMap.header.Avoids '\n' := by decide
    exact cutFromLine_of_reading hparens hfeeds hl hok
  refine ⟨hs.wellFormed, fun group hg => ?_, fun r hr => hcut r (hs.mem_of_mem_toList hr)⟩
  obtain ⟨r, hr, rfl⟩ := hs.exists_of_mem_groupNames hg
  exact (hcut r hr).group_cut

end Bindery
