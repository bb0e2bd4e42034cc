import Bindery.Proofs.Signature.Nesting
import Bindery.Proofs.Text.Cut
import Bindery.Signature.Line

/-!
# The grammar of annotation lines

An annotation in writing is a marker, a name, a comma with a blank, a return type, and a parameter
list in parentheses with anything after it. Reading accepts exactly the lines of this form. A line
has the form in one way only, and that way gives the record.
-/

namespace Bindery.Signature

/-- The pieces of an annotation as they stand in its line, blanks included. -/
structure Annotation where
  /-- What stands between the marker and the first comma with a blank. -/
  full : List Char
  /-- The group, in front of the first underscore of the name. -/
  group : List Char
  /-- What follows that underscore. -/
  name : List Char
  /-- What stands in front of the first opening parenthesis. -/
  returns : List Char
  /-- What stands between that parenthesis and the one that closes it. -/
  parameters : List Char
  /-- What follows the closing parenthesis. -/
  rest : List Char

namespace Annotation

/-- The pieces are those of a text under a marker. -/
structure IsOf (marker text : List Char) (a : Annotation) : Prop where
  /-- The text is made of the pieces. -/
  text_eq : text =
    marker ++ a.full ++ [',', ' '] ++ a.returns ++ ['('] ++ a.parameters ++ [')'] ++ a.rest
  /-- The first comma with a blank is the one after the name. -/
  full_cut : ¬[',', ' '] <:+: a.full
  /-- The name without the blanks around it is cut at an underscore. -/
  symbol_eq : Text.strip a.full = a.group ++ ['_'] ++ a.name
  /-- That underscore is the first one. -/
  group_cut : '_' ∉ a.group
  /-- There is a group. -/
  group_ne : a.group ≠ []
  /-- There is a name. -/
  name_ne : a.name ≠ []
  /-- The first opening parenthesis is the one after the return type. -/
  returns_cut : '(' ∉ a.returns
  /-- There is a return type. -/
  returns_ne : ∃ c ∈ a.returns, Text.isBlank c = false
  /-- The parameter list opens as many parentheses as it closes. -/
  level : a.parameters.count '(' = a.parameters.count ')'
  /-- No beginning of the parameter list closes more than it opens. -/
  nested : ∀ p, p <+: a.parameters → p.count ')' ≤ p.count '('

/-- The record of an annotation. What follows the parameter list does not matter. -/
def record (how : Reading) (source : Option Source) (a : Annotation) : Record where
  group := String.ofList a.group
  name := String.ofList (if how.flatNames then Text.strip a.full else a.name)
  returns := how.types.normalize (String.ofList (Text.strip a.returns))
  parameters := Signature.parameters how.types a.parameters
  symbol := String.ofList (Text.strip a.full)
  source := source

/-- The parts of an annotation that its record is made of. -/
def parts (a : Annotation) : Parts :=
  ⟨Text.strip a.full, a.group, a.name, Text.strip a.returns, a.parameters⟩

/-- The record is the one of the parts. -/
theorem record_parts (how : Reading) (source : Option Source) (a : Annotation) :
    a.parts.record how source = a.record how source := rfl

/-- The pieces of a text are what the five cuts of the text leave. -/
theorem isOf_iff_cuts {marker text : List Char} {a : Annotation} :
    a.IsOf marker text ↔
      ∃ content tail after,
        Text.dropFront? marker text = some content ∧
        Text.cutAt? [',', ' '] content = some (a.full, tail) ∧
        Text.cutAt? ['_'] (Text.strip a.full) = some (a.group, a.name) ∧
        a.group ≠ [] ∧ a.name ≠ [] ∧
        Text.cutAt? ['('] tail = some (a.returns, after) ∧
        Text.strip a.returns ≠ [] ∧
        after = a.parameters ++ ')' :: a.rest ∧ Balanced a.parameters := by
  have hcomma : ',' ≠ ' ' := by decide
  have hblank : Text.strip a.returns ≠ [] ↔ ∃ c ∈ a.returns, Text.isBlank c = false := by
    rw [ne_eq, Text.strip_eq_nil_iff]
    push Not
    simp
  simp only [Text.dropFront?_eq_some_iff, Text.cutAt?_pair_eq_some_iff hcomma,
    Text.cutAt?_singleton_eq_some_iff, hblank, balanced_iff_count]
  constructor
  · intro h
    refine ⟨_, _, _, ?_, ⟨rfl, h.full_cut⟩, ⟨?_, h.group_cut⟩, h.group_ne, h.name_ne,
      ⟨rfl, h.returns_cut⟩, h.returns_ne, rfl, h.level, h.nested⟩
    · rw [h.text_eq]
      simp
    · rw [h.symbol_eq]
      simp
  · rintro ⟨_, _, _, rfl, ⟨rfl, hfull⟩, ⟨hsymbol, hgroup⟩, hgroupNe, hnameNe, ⟨rfl, hreturns⟩,
      hreturnsNe, rfl, hlevel, hnested⟩
    exact ⟨by simp, hfull, by simpa using hsymbol, hgroup, hgroupNe, hnameNe, hreturns, hreturnsNe,
      hlevel, hnested⟩

/-- A text is made of pieces in one way only. -/
theorem IsOf.unique {marker text : List Char} {a b : Annotation} (ha : a.IsOf marker text)
    (hb : b.IsOf marker text) : a = b := by
  obtain ⟨content, tail, after, hmark, hcomma, hline, -, -, hopen, -, hafter, hbal⟩ :=
    isOf_iff_cuts.mp ha
  obtain ⟨content', tail', after', hmark', hcomma', hline', -, -, hopen', -, hafter', hbal'⟩ :=
    isOf_iff_cuts.mp hb
  obtain rfl : content = content' := Option.some.inj (hmark.symm.trans hmark')
  obtain ⟨hfull, rfl⟩ := Prod.mk.inj (Option.some.inj (hcomma.symm.trans hcomma'))
  rw [← hfull] at hline'
  obtain ⟨hgroup, hname⟩ := Prod.mk.inj (Option.some.inj (hline.symm.trans hline'))
  obtain ⟨hreturns, rfl⟩ := Prod.mk.inj (Option.some.inj (hopen.symm.trans hopen'))
  obtain ⟨hparameters, hrest⟩ := balanced_front_unique hbal hbal' (hafter.symm.trans hafter')
  cases a
  cases b
  simp_all

end Annotation

/-- A line is cut into parts exactly when each of the five cuts succeeds. -/
theorem cut_eq_ok_iff_cuts {marker line : List Char} {parts : Parts} :
    cut marker line = .ok parts ↔
      ∃ content full tail before after close,
        Text.dropFront? marker (Text.strip line) = some content ∧
        Text.cutAt? [',', ' '] content = some (full, tail) ∧
        Text.cutAt? ['_'] (Text.strip full) = some (parts.group, parts.name) ∧
        parts.group ≠ [] ∧ parts.name ≠ [] ∧
        Text.cutAt? ['('] tail = some (before, after) ∧
        Text.strip before ≠ [] ∧
        closeFrom 1 after = some close ∧
        parts.symbol = Text.strip full ∧ parts.returns = Text.strip before ∧
        parts.parameters = after.take close := by
  constructor
  · intro h
    unfold cut at h
    split at h
    · exact nomatch h
    next content hmark =>
    split at h
    · exact nomatch h
    next full tail hcomma =>
    dsimp only at h
    split at h
    iterate 3 exact nomatch h
    next group name hgroup hname hline =>
    split at h
    · exact nomatch h
    next before after hopen =>
    split at h
    · exact nomatch h
    next hblank =>
    split at h
    · exact nomatch h
    next close hclose =>
    obtain rfl := Except.ok.inj h
    exact ⟨content, full, tail, before, after, close, hmark, hcomma, hline,
      by simpa using hgroup, by simpa using hname, hopen, by simpa using hblank, hclose,
      rfl, rfl, rfl⟩
  · rintro ⟨content, full, tail, before, after, close, hmark, hcomma, hline, hgroup, hname, hopen,
      hblank, hclose, hsymbol, hreturns, hparameters⟩
    obtain ⟨symbol, group, name, returns, parameters⟩ := parts
    dsimp only at hline hgroup hname hsymbol hreturns hparameters
    subst hsymbol hreturns hparameters
    simp [cut, hmark, hcomma, hline, hopen, hblank, hclose]

/-- The parts that a line is cut into are those of its pieces. -/
theorem cut_eq_ok_iff {marker line : List Char} {parts : Parts} :
    cut marker line = .ok parts ↔
      ∃ a : Annotation, a.IsOf marker (Text.strip line) ∧ a.parts = parts := by
  rw [cut_eq_ok_iff_cuts]
  constructor
  · rintro ⟨content, full, tail, before, after, close, hmark, hcomma, hline, hgroup, hname, hopen,
      hblank, hclose, hsymbol, hreturns, hparameters⟩
    obtain ⟨inside, rest, rfl, rfl, hbal⟩ := closeFrom_one_eq_some_iff.mp hclose
    refine ⟨⟨full, parts.group, parts.name, before, inside, rest⟩,
      Annotation.isOf_iff_cuts.mpr ⟨content, tail, _, hmark, hcomma, hline, hgroup, hname, hopen,
        hblank, rfl, hbal⟩, ?_⟩
    obtain ⟨symbol, group, name, returns, parameters⟩ := parts
    simp_all [ Annotation.parts]
  · rintro ⟨a, ha, rfl⟩
    obtain ⟨content, tail, after, hmark, hcomma, hline, hgroup, hname, hopen, hblank, rfl, hbal⟩ :=
      Annotation.isOf_iff_cuts.mp ha
    exact ⟨content, a.full, tail, a.returns, _, a.parameters.length, hmark, hcomma, hline, hgroup,
      hname, hopen, hblank, closeFrom_one_eq_some_iff.mpr ⟨_, _, rfl, rfl, hbal⟩, rfl, rfl,
      by simp [ Annotation.parts]⟩

/-- A line gives a record exactly if it is cut into parts, and the record is theirs. -/
theorem result_read_eq_ok_iff_cut {how : Reading} {source : Option Source} {line : String}
    {r : Record} :
    (read how source line).result = .ok r ↔
      ∃ parts, cut how.marker.toList line.toList = .ok parts ∧ parts.record how source = r := by
  unfold read
  cases cut how.marker.toList line.toList with
  | error defect => simp [Logged.fail]
  | ok parts => simp

/-- Reading returns exactly the records of annotations. A line is an annotation in one way at most,
and reading any other line is a fault at the place of that line. -/
theorem read_exactly_annotations (how : Reading) (source : Option Source) (line : String) :
    (∀ a b : Annotation, a.IsOf how.marker.toList (Text.strip line.toList) →
      b.IsOf how.marker.toList (Text.strip line.toList) → a = b) ∧
    (∀ r, (read how source line).result = .ok r ↔
      ∃ a : Annotation, a.IsOf how.marker.toList (Text.strip line.toList) ∧
        a.record how source = r) ∧
    ((∃ f, (read how source line).result = .error f ∧ f.place = .ofSource source) ↔
      ¬∃ a : Annotation, a.IsOf how.marker.toList (Text.strip line.toList)) := by
  refine ⟨fun a b => Annotation.IsOf.unique, fun r => ?_, ?_⟩
  · constructor
    · intro h
      unfold read at h
      split at h
      · exact nomatch h
      next parts hcut =>
      obtain ⟨a, ha, rfl⟩ := cut_eq_ok_iff.mp hcut
      exact ⟨a, ha, Except.ok.inj h⟩
    · rintro ⟨a, ha, rfl⟩
      rw [read, cut_eq_ok_iff.mpr ⟨a, ha, rfl⟩]
      exact congrArg Except.ok (a.record_parts how source)
  · constructor
    · rintro ⟨f, hf, -⟩ ⟨a, ha⟩
      rw [read, cut_eq_ok_iff.mpr ⟨a, ha, rfl⟩] at hf
      exact nomatch hf
    · intro h
      cases hcut : cut how.marker.toList line.toList with
      | error defect => exact ⟨⟨defect, .ofSource source⟩, by rw [read, hcut]; rfl, rfl⟩
      | ok parts =>
        obtain ⟨a, ha, -⟩ := cut_eq_ok_iff.mp hcut
        exact absurd ⟨a, ha⟩ h

end Bindery.Signature
