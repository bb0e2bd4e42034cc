import Bindery.Proofs.Signature.Grammar
import Bindery.Proofs.Signature.RoundTrip

/-!
# Records written back as lines

A record keeps neither the blanks of its line nor the parameters that were dropped nor what follows
the closing parenthesis. It can still be written as an annotation, in one layout, and where types
are taken as they stand it is read from there again. Each cut of the second reading falls between
the pieces that were written: the name holds no separator, the return type no opening parenthesis,
and the parameters that were kept are balanced, since each part of a balanced list is.
-/

namespace Bindery

open Signature

/-- The line that a record is written in. -/
def Record.line (r : Record) : String :=
  marker ++ r.symbol ++ ", " ++ r.returns ++ "(" ++ renderParameters r.parameters ++ "))"

namespace Signature

variable {types : TypeMap} {text line : List Char} {a : Annotation}

/-- The parameters of a balanced list are balanced in writing. -/
theorem balanced_render (ht : types.Steady) (h : Balanced text) :
    Balanced (renderParameters (parameters types text)).toList := by
  have hseparator : Balanced [',', ' '] := balanced_of_weight_eq_zero (by simp [weight])
  have htexts : ∀ written ∈ (parameters types text).map fun q => q.text.toList,
      Balanced written := by
    intro written hwritten
    obtain ⟨q, hq, rfl⟩ := List.mem_map.mp hwritten
    rw [parameters_eq_split] at hq
    obtain ⟨part, hpart, hread⟩ := List.mem_filterMap.mp hq
    have hmarks : marks q.text.toList = marks part := (reread_of_read? ht hread).1
    rw [← balanced_marks_iff, hmarks, balanced_marks_iff]
    exact balanced_of_mem_split h hpart
  have hcomma : ", ".toList = [',', ' '] := rfl
  rw [renderParameters, String.toList_intercalate, hcomma, List.map_map]
  exact balanced_intercalate hseparator htexts

/-- Where types are taken as they stand, no part of a rendered list is dropped. -/
theorem droppedParts_render (hempty : types.table = []) (text : List Char) :
    droppedParts types (renderParameters (parameters types text)).toList = [] := by
  have hparted := parted_texts_parameters (steady_of_table_eq_nil hempty) text
  have hsame : ∀ q ∈ parameters types text, Parameter.read? types q.text.toList = some q :=
    fun q hq => read?_text_of_mem hempty hq
  cases hps : parameters types text with
  | nil => rfl
  | cons p ps =>
    rw [hps] at hparted hsame
    have hread : ∀ part ∈ split (renderParameters (p :: ps)).toList,
        (Parameter.read? types part).isNone = false := by
      intro part hpart
      rw [split_renderParameters_cons hparted] at hpart
      rcases List.mem_cons.mp hpart with rfl | hmem
      · rw [hsame p List.mem_cons_self]
        rfl
      · obtain ⟨q, hq, rfl⟩ := List.mem_map.mp hmem
        rw [read?_blank_cons, hsame q (List.mem_cons_of_mem p hq)]
        rfl
    unfold droppedParts parameterParts
    split
    · rfl
    · rw [List.filter_eq_nil_iff.mpr fun part hpart => by simp [hread part hpart], List.map_nil]

/-- A text between the marker and a closing parenthesis has no blanks at its ends. -/
theorem strip_marked (middle : List Char) :
    Text.strip (marker.toList ++ middle ++ [')']) = marker.toList ++ middle ++ [')'] := by
  refine Text.Trimmed.strip_eq ⟨by simp, fun c hc => ?_, fun c hc => ?_⟩
  · rw [List.append_assoc, List.head?_append_of_ne_nil _ (by decide)] at hc
    obtain rfl : 'O' = c := Option.some.inj hc
    decide
  · rw [List.getLast?_concat] at hc
    obtain rfl : ')' = c := Option.some.inj hc
    decide

/-- A spelling stays as it is, up to the blanks around it, where none is listed. -/
theorem normalize_of_table_eq_nil (hempty : types.table = []) (written : String) :
    types.normalize written = Text.stripped written := by
  rw [TypeMap.normalize, TypeMap.spelling, hempty]
  rfl

namespace Annotation

/-- The pieces of an annotation in the layout in which records are written. -/
def laidOut (types : TypeMap) (a : Annotation) : Annotation where
  full := Text.strip a.full
  group := a.group
  name := a.name
  returns := Text.strip a.returns
  parameters := (renderParameters (Signature.parameters types a.parameters)).toList
  rest := [')']

/-- The return type of a record is as it stands in the line, up to the blanks around it, where
types are taken as they stand. -/
theorem returns_record {how : Reading} (hempty : how.types.table = []) (source : Option Source)
    (a : Annotation) : (a.record how source).returns = String.ofList (Text.strip a.returns) := by
  have hsame := normalize_of_table_eq_nil hempty (String.ofList (Text.strip a.returns))
  rwa [Text.stripped, String.toList_ofList, Text.strip_strip] at hsame

/-- The pieces in the layout are those of the line of the record. -/
theorem IsOf.laidOut {how : Reading} (hempty : how.types.table = [])
    (h : a.IsOf marker.toList text) (source : Option Source) :
    (a.laidOut how.types).IsOf marker.toList
      (Text.strip (a.record how source).line.toList) := by
  have hline : (a.record how source).line.toList = marker.toList ++
      (Text.strip a.full ++ [',', ' '] ++ Text.strip a.returns ++ ['('] ++
        (renderParameters (Signature.parameters how.types a.parameters)).toList ++ [')']) ++
      [')'] := by
    rw [Record.line, returns_record hempty]
    simp [record]
  have hbalanced := balanced_iff_count.mp
    (balanced_render (steady_of_table_eq_nil hempty) (balanced_iff_count.mpr ⟨h.level, h.nested⟩))
  have hreturns : ¬∀ c ∈ Text.strip a.returns, Text.isBlank c = true := by
    rw [← Text.strip_eq_nil_iff, Text.strip_strip, Text.strip_eq_nil_iff]
    obtain ⟨c, hc, hblank⟩ := h.returns_ne
    exact fun hall => absurd (hall c hc) (by simp [hblank])
  rw [hline, strip_marked]
  exact {
    text_eq := by simp [ Annotation.laidOut]
    full_cut := fun hpair => h.full_cut (hpair.trans (Text.strip_isInfix a.full))
    symbol_eq := by rw [ Annotation.laidOut, Text.strip_strip, h.symbol_eq]
    group_cut := h.group_cut
    group_ne := h.group_ne
    name_ne := h.name_ne
    returns_cut := fun hmem => h.returns_cut ((Text.strip_isInfix a.returns).subset hmem)
    returns_ne := by simpa [ Annotation.laidOut] using hreturns
    level := hbalanced.1
    nested := hbalanced.2 }

/-- An annotation in the layout has the same record, up to the place. -/
theorem record_laidOut {how : Reading} (hempty : how.types.table = [])
    (source other : Option Source) (a : Annotation) :
    (a.laidOut how.types).record how other = { a.record how source with source := other } := by
  simp only [ Annotation.record, Annotation.laidOut, Text.strip_strip,
    parameters_render_parameters hempty]

end Annotation

/-- Where types are taken as they stand, the line of a record that was read is read as this record,
and nothing is dropped. -/
theorem read_line_of_read (flatNames : Bool) (source other : Option Source) (line : String)
    (r : Record) (h : (read ⟨.ofPairs [], flatNames, marker⟩ source line).result = .ok r) :
    read ⟨.ofPairs [], flatNames, marker⟩ other r.line = ⟨[], .ok { r with source := other }⟩ := by
  obtain ⟨parts, hparts, rfl⟩ := result_read_eq_ok_iff_cut.mp h
  obtain ⟨a, ha, rfl⟩ := cut_eq_ok_iff.mp hparts
  have hempty : (Reading.mk (.ofPairs []) flatNames marker).types.table = [] := rfl
  have hagain := cut_eq_ok_iff.mpr ⟨_, ha.laidOut hempty source, rfl⟩
  have hdropped : droppedParts (.ofPairs []) (a.laidOut (.ofPairs [])).parts.parameters = [] :=
    droppedParts_render rfl a.parameters
  rw [ Annotation.record_parts, read, hagain]
  dsimp only
  rw [hdropped, Annotation.record_parts, Annotation.record_laidOut hempty source other]

/-- A line with surplus blanks, a dropped parameter, commas inside a type and a remark behind it
is read again from its layout. -/
theorem read_line_of_read_timer :
    (read ⟨.ofPairs [], false, marker⟩ none
      "OMP_CAPI( Timer_Start , long  int (Fn(int, int) run,broken, int\tperiod)) // a").result =
      .ok ⟨"Timer", "Start", "long  int", [⟨"Fn(int,", "int) run"⟩, ⟨"int", "period"⟩],
        "Timer_Start", none⟩ ∧
    read ⟨.ofPairs [], false, marker⟩ none
      "OMP_CAPI(Timer_Start, long  int(Fn(int, int) run, int period))" =
      ⟨[], .ok ⟨"Timer", "Start", "long  int", [⟨"Fn(int,", "int) run"⟩, ⟨"int", "period"⟩],
        "Timer_Start", none⟩⟩ := by
  have hread : (read ⟨.ofPairs [], false, marker⟩ none
      "OMP_CAPI( Timer_Start , long  int (Fn(int, int) run,broken, int\tperiod)) // a").result =
      .ok ⟨"Timer", "Start", "long  int", [⟨"Fn(int,", "int) run"⟩, ⟨"int", "period"⟩],
        "Timer_Start", none⟩ := by
    rfl
  have hline : Record.line ⟨"Timer", "Start", "long  int",
      [⟨"Fn(int,", "int) run"⟩, ⟨"int", "period"⟩], "Timer_Start", none⟩ =
      "OMP_CAPI(Timer_Start, long  int(Fn(int, int) run, int period))" := by
    decide
  have hagain := read_line_of_read false none none _ _ hread
  rw [hline] at hagain
  exact ⟨hread, hagain⟩

end Signature

end Bindery
