import Bindery.Proofs.Keyed
import Bindery.Proofs.Signature.TopLevel
import Bindery.Proofs.Text.Blank
import Bindery.Proofs.Text.Cut
import Bindery.Signature.Parameters

/-!
# Parameter lists survive rendering

A parameter list that is read, rendered and read again gives the same parameters if types are taken
as they stand. Under a type map a listed word can become several words, and then the second reading
finds the type's end elsewhere; but rendering what it reads gives the same text. For this a spelling
has to be written without parentheses, commas and surplus blanks, and its first word has to stay as
it is.
-/

namespace Bindery

open Signature

/-- A spelling takes no part in the cuts of a list, and what is read of it in front of a name is
written again in the same way: its first word keeps its spelling, and any further text follows one
plain blank. -/
def TypeMap.Rereads (m : TypeMap) (spelling : String) : Prop :=
  let word := spelling.toList.takeWhile (!Text.isBlank ·)
  let rest := spelling.toList.dropWhile (!Text.isBlank ·)
  marks spelling.toList = [] ∧ Text.IsWord word ∧ m.normalize (String.ofList word) =
    String.ofList word ∧ (rest = [] ∨ rest.head? = some ' ' ∧ Text.Trimmed rest.tail)

instance (m : TypeMap) (spelling : String) : Decidable (m.Rereads spelling) :=
  inferInstanceAs (Decidable (_ ∧ _ ∧ _ ∧ (_ ∨ _ ∧ _)))

/-- The words of a type map have no parentheses and commas, and its spellings are reread. -/
def TypeMap.Steady (m : TypeMap) : Prop :=
  ∀ e ∈ m.table, marks e.1.toList = [] ∧ m.Rereads e.2

instance (m : TypeMap) : Decidable m.Steady := inferInstanceAs (Decidable (∀ e ∈ m.table, _))

namespace Signature

variable {types : TypeMap} {part word name : List Char} {q : Parameter}

/-- A blank is no mark. -/
theorem isMark_of_isBlank {c : Char} (h : Text.isBlank c = true) : isMark c = false := by
  have hother : c ≠ '(' ∧ c ≠ ')' ∧ c ≠ ',' := by
    refine ⟨?_, ?_, ?_⟩ <;> rintro rfl <;> exact absurd h (by decide)
  simp [isMark, hother]

/-- Dropping blanks leaves the marks. -/
theorem marks_dropBlank (cs : List Char) : marks (Text.dropBlank cs) = marks cs := by
  induction cs with
  | nil => rfl
  | cons c cs ih =>
    unfold Text.dropBlank marks at ih ⊢
    cases hc : Text.isBlank c with
    | true =>
      rw [List.dropWhile_cons_of_pos hc, ih, List.filter_cons_of_neg]
      simp [isMark_of_isBlank hc]
    | false => rw [List.dropWhile_cons_of_neg (by simp [hc])]

/-- Stripping leaves the marks. -/
theorem marks_strip (cs : List Char) : marks (Text.strip cs) = marks cs := by
  have hback : ∀ ds : List Char, marks ds.reverse = (marks ds).reverse := fun ds =>
    List.filter_reverse
  rw [Text.strip, Text.dropFinalBlank, hback, marks_dropBlank, hback, List.reverse_reverse,
    marks_dropBlank]

/-- A word in front of a trimmed text is read as the type, and the text as the name. -/
theorem read?_append (hw : Text.IsWord word) (hn : Text.Trimmed name) :
    Parameter.read? types (word ++ ' ' :: name) =
      some ⟨types.normalize (String.ofList word), String.ofList name⟩ := by
  have hname : Text.dropBlank (' ' :: name) = name := by
    have hhead := Text.dropBlank_of_head hn.2.1
    rwa [Text.dropBlank, List.dropWhile_cons_of_pos (by decide), ← Text.dropBlank]
  unfold Parameter.read?
  rw [(hw.trimmed_append hn).strip_eq]
  dsimp only
  rw [hw.dropWhile_append, hw.takeWhile_append, hname, if_neg (by simp [hn.1])]

/-- A blank in front of a part does not matter. -/
theorem read?_blank_cons (types : TypeMap) (part : List Char) :
    Parameter.read? types (' ' :: part) = Parameter.read? types part := by
  have hstrip : Text.strip (' ' :: part) = Text.strip part := by
    unfold Text.strip Text.dropBlank
    rw [List.dropWhile_cons_of_pos (by decide)]
  unfold Parameter.read?
  rw [hstrip]

/-- What is read as a parameter is a word and a trimmed text with the marks of the part. -/
theorem exists_word_of_read? (h : Parameter.read? types part = some q) :
    ∃ word name, Text.IsWord word ∧ Text.Trimmed name ∧
      q = ⟨types.normalize (String.ofList word), String.ofList name⟩ ∧
      marks part = marks word ++ marks name := by
  unfold Parameter.read? at h
  dsimp only at h
  split at h
  · exact nomatch h
  next hname =>
  have hname' : Text.dropBlank ((Text.strip part).dropWhile (!Text.isBlank ·)) ≠ [] := by
    simpa using hname
  have hne : Text.strip part ≠ [] := by
    intro hnil
    rw [hnil] at hname'
    exact hname' rfl
  refine ⟨_, _, Text.isWord_takeWhile_strip hne, Text.trimmed_dropBlank_dropWhile_strip hname',
    (Option.some.inj h).symm, ?_⟩
  rw [marks_dropBlank, ← marks_append, List.takeWhile_append_dropWhile, marks_strip]

/-- A word that is listed becomes its spelling, and any other word stays as it is. -/
theorem normalize_word_cases (types : TypeMap) (hw : Text.IsWord word) :
    (∃ e ∈ types.table, e.1 = String.ofList word ∧
      types.normalize (String.ofList word) = e.2) ∨
    types.normalize (String.ofList word) = String.ofList word := by
  have hstrip : Text.stripped (String.ofList word) = String.ofList word := by
    rw [Text.stripped, String.toList_ofList, hw.trimmed.strip_eq]
  rw [TypeMap.normalize, hstrip, TypeMap.spelling]
  cases hfound : Keyed.get? (String.ofList word) types.table with
  | none => exact .inr rfl
  | some spelling => exact .inl ⟨_, Keyed.mem_of_get?_eq_some hfound, rfl, rfl⟩

/-- What a word becomes has the marks of the word, and begins with a word that keeps its spelling,
at its end or in front of one plain blank. -/
theorem rereads_normalize (h : types.Steady) (hw : Text.IsWord word) :
    marks (types.normalize (String.ofList word)).toList = marks word ∧
    ∃ first, Text.IsWord first ∧ types.normalize (String.ofList first) = String.ofList first ∧
      ((types.normalize (String.ofList word)).toList = first ∨
        ∃ rest, Text.Trimmed rest ∧
          (types.normalize (String.ofList word)).toList = first ++ ' ' :: rest) := by
  rcases normalize_word_cases types hw with ⟨e, he, hword, hspelling⟩ | hsame
  · obtain ⟨hmarks, hspelled, hfirst, hkeeps, hrest⟩ := h e he
    rw [hword, String.toList_ofList] at hmarks
    rw [hspelling]
    have htext : e.2.toList.takeWhile (!Text.isBlank ·) ++
        e.2.toList.dropWhile (!Text.isBlank ·) = e.2.toList := List.takeWhile_append_dropWhile
    refine ⟨by rw [hspelled, hmarks], _, hfirst, hkeeps, ?_⟩
    rcases hrest with hnil | ⟨hblank, htrimmed⟩
    · rw [hnil, List.append_nil] at htext
      exact .inl htext.symm
    · rw [← List.cons_head?_tail hblank] at htext
      exact .inr ⟨_, htrimmed, htext.symm⟩
  · rw [hsame, String.toList_ofList]
    exact ⟨rfl, word, hw, hsame, .inl rfl⟩

/-- A parameter in writing is its type, a blank and its name. -/
theorem toList_text (q : Parameter) : q.text.toList = q.type.toList ++ ' ' :: q.name.toList := by
  simp [Parameter.text]

/-- A parameter that was read is written with the marks of its part, and read again it is written
in the same way. -/
theorem reread_of_read? (ht : types.Steady) (h : Parameter.read? types part = some q) :
    marks q.text.toList = marks part ∧
    ∃ again, Parameter.read? types q.text.toList = some again ∧ again.text = q.text := by
  obtain ⟨word, name, hw, hn, rfl, hmarks⟩ := exists_word_of_read? h
  obtain ⟨hspelled, first, hfirst, hkeeps, hspelling⟩ := rereads_normalize ht hw
  rw [toList_text, String.toList_ofList]
  refine ⟨?_, ?_⟩
  · rw [marks_append, hspelled, hmarks]
    rfl
  · -- The second reading ends the type after its first word.
    have hagain : ∀ more, Text.Trimmed more →
        (types.normalize (String.ofList word)).toList ++ ' ' :: name = first ++ ' ' :: more →
        ∃ again, Parameter.read? types
          ((types.normalize (String.ofList word)).toList ++ ' ' :: name) = some again ∧
          again.text =
            Parameter.text ⟨types.normalize (String.ofList word), String.ofList name⟩ := by
      intro more hmore htext
      rw [htext, read?_append hfirst hmore, hkeeps]
      refine ⟨_, rfl, String.toList_inj.mp ?_⟩
      rw [toList_text, toList_text, String.toList_ofList, String.toList_ofList,
        String.toList_ofList, htext]
    rcases hspelling with hword | ⟨rest, hrest, hwords⟩
    · exact hagain name hn (by rw [hword])
    · refine hagain (rest ++ ' ' :: name) ?_ (by rw [hwords, List.append_assoc, List.cons_append])
      refine ⟨by simp, fun c hc => hrest.2.1 c ?_, fun c hc => hn.2.2 c ?_⟩
      · rwa [List.head?_append_of_ne_nil _ hrest.1] at hc
      · rwa [List.getLast?_append_of_ne_nil _ (List.cons_ne_nil _ _),
          List.getLast?_cons_of_ne_nil hn.1] at hc

/-- Where types are taken as they stand, a parameter that was read is read again as itself. -/
theorem read?_text_of_read? (hempty : types.table = [])
    (h : Parameter.read? types part = some q) : Parameter.read? types q.text.toList = some q := by
  obtain ⟨word, name, hw, hn, rfl, -⟩ := exists_word_of_read? h
  have hsame : types.normalize (String.ofList word) = String.ofList word := by
    rcases normalize_word_cases types hw with ⟨e, he, -⟩ | hsame
    · rw [hempty] at he
      exact absurd he List.not_mem_nil
    · exact hsame
  rw [toList_text, hsame, String.toList_ofList, String.toList_ofList, read?_append hw hn, hsame]

/-- The parameters of a list are those of its parts, also if the list is blank. -/
theorem parameters_eq_split (types : TypeMap) (text : List Char) :
    parameters types text = (split text).filterMap (Parameter.read? types) := by
  unfold parameters parameterParts
  split
  next hblank =>
    have hall : Text.strip text = [] := List.isEmpty_iff.mp hblank
    have hwhole : Whole 0 text := by
      rintro p ⟨rest, rfl⟩ -
      have hcomma := Text.strip_eq_nil_iff.mp hall ',' (by simp)
      exact absurd hcomma (by decide)
    have hnone : Parameter.read? types text = none := by
      unfold Parameter.read?
      rw [hall]
      rfl
    rw [split, splitFrom_of_whole hwhole, List.filterMap_cons_none hnone]
  · rfl

/-- A comma with a blank after each text but the last is a comma, and a blank in front of each text
but the first. -/
theorem intercalate_comma_blank (text : List Char) (texts : List (List Char)) :
    [',', ' '].intercalate (text :: texts) =
      [','].intercalate (text :: texts.map (' ' :: ·)) := by
  induction texts generalizing text with
  | nil => rfl
  | cons next texts ih =>
    have hfront : ∀ (x : List Char) (ys : List (List Char)),
        [','].intercalate ((' ' :: x) :: ys) = ' ' :: [','].intercalate (x :: ys) := by
      intro x ys
      cases ys <;> simp [List.intercalate_cons_cons]
    rw [List.intercalate_cons_cons, ih, List.map_cons, List.intercalate_cons_cons, hfront]
    simp

/-- A list in writing is the texts of its parameters between commas, with a blank in front of each
but the first. -/
theorem toList_renderParameters_cons (p : Parameter) (ps : List Parameter) :
    (renderParameters (p :: ps)).toList =
      [','].intercalate (p.text.toList :: ps.map fun q => ' ' :: q.text.toList) := by
  have hcomma : ", ".toList = [',', ' '] := rfl
  rw [renderParameters, String.toList_intercalate, hcomma, List.map_cons, List.map_cons,
    intercalate_comma_blank, List.map_map, List.map_map]
  rfl

/-- A list that is rendered from parted texts is cut into these texts. -/
theorem split_renderParameters_cons {p : Parameter} {ps : List Parameter}
    (h : Parted ((p :: ps).map fun q => q.text.toList)) :
    split (renderParameters (p :: ps)).toList =
      p.text.toList :: ps.map fun q => ' ' :: q.text.toList := by
  have hparted : Parted (p.text.toList :: ps.map fun q => ' ' :: q.text.toList) := by
    obtain ⟨hwhole, hlevel, hrest⟩ := h
    have hblank := hrest.map fun part => (rfl : marks (' ' :: part) = marks part)
    rw [List.map_map] at hblank
    exact ⟨hwhole, by simpa using hlevel, hblank⟩
  rw [toList_renderParameters_cons, split_intercalate hparted (List.cons_ne_nil _ _)]

/-- A list that is rendered from parted texts is read text by text. -/
theorem parameters_render {ps : List Parameter} (h : Parted (ps.map fun p => p.text.toList)) :
    parameters types (renderParameters ps).toList =
      ps.filterMap fun p => Parameter.read? types p.text.toList := by
  rw [parameters_eq_split]
  cases ps with
  | nil => rfl
  | cons p ps =>
    rw [split_renderParameters_cons h, List.filterMap_cons, List.filterMap_cons,
      List.filterMap_map]
    simp only [Function.comp_def, read?_blank_cons]

/-- The texts of the parameters of a list are parted. -/
theorem parted_texts_parameters (ht : types.Steady) (text : List Char) :
    Parted ((parameters types text).map fun p => p.text.toList) := by
  rw [parameters_eq_split, List.map_filterMap]
  refine (parted_split text).filterMap fun part written hwritten => ?_
  obtain ⟨q, hq, rfl⟩ := Option.map_eq_some_iff.mp hwritten
  exact (reread_of_read? ht hq).1

/-- A parameter of a list was read from some part. -/
theorem exists_read?_of_mem {text : List Char} (h : q ∈ parameters types text) :
    ∃ part, Parameter.read? types part = some q := by
  rw [parameters_eq_split] at h
  obtain ⟨part, -, hpart⟩ := List.mem_filterMap.mp h
  exact ⟨part, hpart⟩

/-- Where spellings are reread, rendering is a fixed point of reading and rendering. -/
theorem render_parameters_render (ht : types.Steady) (text : List Char) :
    renderParameters (parameters types (renderParameters (parameters types text)).toList) =
      renderParameters (parameters types text) := by
  rw [parameters_render (parted_texts_parameters ht text)]
  unfold renderParameters
  rw [List.map_filterMap]
  have hsame : (parameters types text).filterMap
      (fun q => (Parameter.read? types q.text.toList).map Parameter.text) =
      (parameters types text).map Parameter.text := by
    rw [← List.filterMap_eq_map]
    refine List.filterMap_congr fun q hq => ?_
    obtain ⟨part, hpart⟩ := exists_read?_of_mem hq
    obtain ⟨-, again, hagain, htext⟩ := reread_of_read? ht hpart
    rw [hagain, Option.map_some, htext, Function.comp_apply]
  rw [hsame]

/-- Types that are taken as they stand are reread. -/
theorem steady_of_table_eq_nil (hempty : types.table = []) : types.Steady := by
  intro e he
  rw [hempty] at he
  exact absurd he List.not_mem_nil

/-- Where types are taken as they stand, each parameter of a list is read again as itself. -/
theorem read?_text_of_mem (hempty : types.table = []) {text : List Char}
    (h : q ∈ parameters types text) : Parameter.read? types q.text.toList = some q := by
  obtain ⟨part, hpart⟩ := exists_read?_of_mem h
  exact read?_text_of_read? hempty hpart

/-- Where types are taken as they stand, rendering and reading gives the same parameters. -/
theorem parameters_render_parameters (hempty : types.table = []) (text : List Char) :
    parameters types (renderParameters (parameters types text)).toList =
      parameters types text := by
  rw [parameters_render (parted_texts_parameters (steady_of_table_eq_nil hempty) text),
    List.filterMap_congr fun q hq => read?_text_of_mem hempty hq, List.filterMap_some]

/-- Every text that is read as a parameter list survives rendering. With types as they stand the
parameters are the same; with the spellings of the header and of the documentation the rendered
text is the same. -/
theorem parameters_survive_rendering (text : List Char) :
    parameters (.ofPairs []) (renderParameters (parameters (.ofPairs []) text)).toList =
      parameters (.ofPairs []) text ∧
    ∀ types ∈ [TypeMap.header, TypeMap.docs],
      renderParameters (parameters types (renderParameters (parameters types text)).toList) =
        renderParameters (parameters types text) := by
  have hsteady : ∀ types ∈ [TypeMap.header, TypeMap.docs], types.Steady := by decide +kernel
  exact ⟨parameters_render_parameters rfl text,
    fun types htypes => render_parameters_render (hsteady types htypes) text⟩

end Signature

end Bindery
