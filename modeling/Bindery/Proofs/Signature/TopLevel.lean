import Bindery.Proofs.Signature.Nesting
import Mathlib.Data.List.Infix

/-!
# Parts between top-level commas

A text is cut at the commas where the depth is zero. The parts have no such comma in them, and all
but the last are level, so that the next part starts at depth zero again. Parts of this form are
cut in the same places after they were joined, so the cut of a text is the one list of them that
joins to it. Which commas are cut depends on the parentheses and commas alone.
-/

namespace Bindery.Signature

/-- No comma of a text stands where the depth is zero, if the text starts at some depth. -/
def Whole (depth : Int) (cs : List Char) : Prop := ∀ p, p ++ [','] <+: cs → depth + excess p ≠ 0

/-- Parts as a cut at the top-level commas leaves them: each is whole, and each but the last is
level. -/
def Parted : List (List Char) → Prop
  | [] => True
  | part :: parts => Whole 0 part ∧ (parts ≠ [] → excess part = 0) ∧ Parted parts

variable {depth : Int} {c : Char} {cs part : List Char} {parts : List (List Char)}

/-- The empty text is whole. -/
theorem whole_nil (depth : Int) : Whole depth [] := by
  intro p hp
  simp at hp

/-- A text is whole if it does not begin with a comma at depth zero and goes on whole. -/
theorem whole_cons_iff :
    Whole depth (c :: cs) ↔ ¬(c = ',' ∧ depth = 0) ∧ Whole (depth + weight c) cs := by
  constructor
  · intro h
    refine ⟨?_, fun p hp => ?_⟩
    · rintro ⟨rfl, hdepth⟩
      exact h [] (List.cons_prefix_cons.mpr ⟨rfl, List.nil_prefix⟩) (by simpa [excess] using hdepth)
    · have hlater := h (c :: p) (List.cons_prefix_cons.mpr ⟨rfl, hp⟩)
      rw [excess] at hlater
      omega
  · rintro ⟨hfirst, hlater⟩ p hp
    cases p with
    | nil =>
      obtain ⟨rfl, -⟩ := List.cons_prefix_cons.mp hp
      intro hdepth
      exact hfirst ⟨rfl, by simpa [excess] using hdepth⟩
    | cons b p =>
      obtain ⟨rfl, hfront⟩ := List.cons_prefix_cons.mp hp
      have hrest := hlater p hfront
      rw [excess]
      omega

/-- A whole text is not cut. -/
theorem splitFrom_of_whole (h : Whole depth cs) : splitFrom depth cs = [cs] := by
  induction cs generalizing depth with
  | nil => rfl
  | cons c cs ih =>
    obtain ⟨hfirst, hlater⟩ := whole_cons_iff.mp h
    rw [splitFrom, if_neg hfirst, ih hlater, consFirst]

/-- Where a text comes back to depth zero the comma behind it is cut, and the other cuts are those
of the text and of what follows. -/
theorem splitFrom_append (hlevel : depth + excess cs = 0) (more : List Char) :
    splitFrom depth (cs ++ ',' :: more) = splitFrom depth cs ++ split more := by
  induction cs generalizing depth with
  | nil =>
    have hzero : depth = 0 := by simpa [excess] using hlevel
    rw [hzero]
    rfl
  | cons c cs ih =>
    rw [excess, ← Int.add_assoc] at hlevel
    rw [List.cons_append, splitFrom, splitFrom]
    split
    next hcut =>
      have hweight : depth + weight c = 0 := by rw [hcut.1, hcut.2]; rfl
      rw [hweight] at hlevel
      rw [ih hlevel, List.cons_append]
    next =>
      rw [ih hlevel]
      cases hparts : splitFrom (depth + weight c) cs with
      | nil => exact absurd hparts (splitFrom_ne_nil _ _)
      | cons part parts => rfl

/-- The comma after a whole text that comes back to depth zero is cut. -/
theorem splitFrom_append_comma (h : Whole depth part) (hlevel : depth + excess part = 0)
    (cs : List Char) : splitFrom depth (part ++ ',' :: cs) = part :: split cs := by
  rw [splitFrom_append hlevel, splitFrom_of_whole h, List.singleton_append]

/-- Parts that were joined are cut apart again. -/
theorem split_intercalate (h : Parted parts) (hne : parts ≠ []) :
    split ([','].intercalate parts) = parts := by
  induction parts with
  | nil => exact absurd rfl hne
  | cons part parts ih =>
    obtain ⟨hwhole, hlevel, hparts⟩ := h
    cases parts with
    | nil =>
      rw [List.intercalate_singleton]
      exact splitFrom_of_whole hwhole
    | cons next parts =>
      have hzero : 0 + excess part = 0 := by
        rw [hlevel (List.cons_ne_nil _ _), Int.add_zero]
      rw [List.intercalate_cons_cons, List.append_assoc, List.singleton_append, split,
        splitFrom_append_comma hwhole hzero, ih hparts (List.cons_ne_nil _ _)]

/-- The first part goes on from the depth at which the text starts, and the later parts start
afresh. -/
theorem splitFrom_parted (depth : Int) (cs : List Char) :
    ∃ part parts, splitFrom depth cs = part :: parts ∧ Whole depth part ∧
      (parts ≠ [] → depth + excess part = 0) ∧ Parted parts := by
  induction cs generalizing depth with
  | nil => exact ⟨[], [], rfl, whole_nil depth, by simp, trivial⟩
  | cons c cs ih =>
    rw [splitFrom]
    split
    next hcut =>
      obtain ⟨part, parts, hsplit, hwhole, hlevel, hparts⟩ := ih 0
      rw [hsplit]
      refine ⟨[], part :: parts, rfl, whole_nil depth, fun _ => ?_, hwhole, ?_, hparts⟩
      · rw [hcut.2, excess, Int.add_zero]
      · simpa using hlevel
    next hcut =>
      obtain ⟨part, parts, hsplit, hwhole, hlevel, hparts⟩ := ih (depth + weight c)
      rw [hsplit, consFirst]
      refine ⟨c :: part, parts, rfl, whole_cons_iff.mpr ⟨hcut, hwhole⟩, fun hne => ?_, hparts⟩
      have hzero := hlevel hne
      rw [excess]
      omega

/-- A cut leaves parts of this form. -/
theorem parted_split (cs : List Char) : Parted (split cs) := by
  obtain ⟨part, parts, hsplit, hwhole, hlevel, hparts⟩ := splitFrom_parted 0 cs
  rw [split, hsplit]
  exact ⟨hwhole, fun hne => by have hzero := hlevel hne; omega, hparts⟩

/-- A character in front of the first part is in front of all parts together. -/
theorem intercalate_consFirst (c : Char) (h : parts ≠ []) :
    [','].intercalate (consFirst c parts) = c :: [','].intercalate parts := by
  cases parts with
  | nil => exact absurd rfl h
  | cons part parts => cases parts <;> simp [consFirst, List.intercalate_cons_cons]

/-- The parts with commas between them are the text. -/
theorem intercalate_splitFrom (depth : Int) (cs : List Char) :
    [','].intercalate (splitFrom depth cs) = cs := by
  induction cs generalizing depth with
  | nil => simp [splitFrom]
  | cons c cs ih =>
    rw [splitFrom]
    split
    next hcut =>
      have hrest := ih 0
      cases hparts : splitFrom 0 cs with
      | nil => exact absurd hparts (splitFrom_ne_nil 0 cs)
      | cons part parts =>
        rw [hparts] at hrest
        rw [List.intercalate_cons_cons, hrest, hcut.1]
        rfl
    next => rw [intercalate_consFirst c (splitFrom_ne_nil _ cs), ih]

/-- Each part stands in the text in one piece. -/
theorem isInfix_of_mem_splitFrom (h : part ∈ splitFrom depth cs) : part <:+: cs := by
  have hpiece : ∀ parts : List (List Char), part ∈ parts → part <:+: [','].intercalate parts := by
    intro parts hpart
    induction parts with
    | nil => exact absurd hpart List.not_mem_nil
    | cons first parts ih =>
      cases parts with
      | nil =>
        obtain rfl := List.mem_singleton.mp hpart
        rw [List.intercalate_singleton]
      | cons next parts =>
        rw [List.intercalate_cons_cons]
        rcases List.mem_cons.mp hpart with rfl | hlater
        · exact (List.prefix_append _ _).isInfix.trans (List.prefix_append _ _).isInfix
        · exact (ih hlater).trans (List.suffix_append _ _).isInfix
  have hpart := hpiece _ h
  rwa [intercalate_splitFrom] at hpart

/-- Parts have no comma at their top level, and each but the last is level. -/
structure TopLevel (parts : List (List Char)) : Prop where
  /-- In front of a comma of a part, this part has not closed as many parentheses as it opened. -/
  enclosed : ∀ part ∈ parts, ∀ before after, part = before ++ ',' :: after →
    before.count '(' ≠ before.count ')'
  /-- A part that another one follows closes as many parentheses as it opens. -/
  level : ∀ part ∈ parts.dropLast, part.count '(' = part.count ')'

/-- From depth zero, a text is whole if none of its commas has a level text in front of it. -/
theorem whole_zero_iff :
    Whole 0 cs ↔ ∀ before after, cs = before ++ ',' :: after →
      before.count '(' ≠ before.count ')' := by
  constructor
  · rintro h before after rfl hcount
    have hlevel : excess before = 0 := excess_eq_zero_iff.mpr hcount
    exact h before ⟨after, by simp⟩ (by omega)
  · rintro h p ⟨after, rfl⟩ hdepth
    have hlevel : excess p = 0 := by omega
    exact h p after (by simp) (excess_eq_zero_iff.mp hlevel)

/-- Parts have the form that a cut leaves exactly if they are cut at the top level. -/
theorem parted_iff_topLevel : Parted parts ↔ TopLevel parts := by
  induction parts with
  | nil => exact iff_of_true trivial ⟨by simp, by simp⟩
  | cons part parts ih =>
    rw [Parted, ih, whole_zero_iff, excess_eq_zero_iff]
    cases parts with
    | nil =>
      constructor
      · rintro ⟨hwhole, -, -⟩
        exact ⟨by simpa using hwhole, by simp⟩
      · rintro ⟨henclosed, -⟩
        exact ⟨by simpa using henclosed, by simp, ⟨by simp, by simp⟩⟩
    | cons next parts =>
      constructor
      · rintro ⟨hwhole, hlevel, hparts⟩
        refine ⟨List.forall_mem_cons.mpr ⟨hwhole, hparts.enclosed⟩, ?_⟩
        rw [List.dropLast_cons_cons]
        exact List.forall_mem_cons.mpr ⟨hlevel (List.cons_ne_nil _ _), hparts.level⟩
      · rintro ⟨henclosed, hlevel⟩
        rw [List.dropLast_cons_cons] at hlevel
        obtain ⟨hwhole, hrest⟩ := List.forall_mem_cons.mp henclosed
        obtain ⟨hfirst, hlater⟩ := List.forall_mem_cons.mp hlevel
        exact ⟨hwhole, fun _ => hfirst, hrest, hlater⟩

/-- The cut of a text is the only list of parts that has this form and gives the text when it is
joined. -/
theorem split_eq_iff :
    split cs = parts ↔ parts ≠ [] ∧ [','].intercalate parts = cs ∧ Parted parts := by
  constructor
  · rintro rfl
    exact ⟨splitFrom_ne_nil 0 cs, intercalate_splitFrom 0 cs, parted_split cs⟩
  · rintro ⟨hne, rfl, hparted⟩
    exact split_intercalate hparted hne

/-- Level parts with commas between them are a level text. -/
theorem excess_intercalate (h : ∀ part ∈ parts, excess part = 0) :
    excess ([','].intercalate parts) = 0 := by
  induction parts with
  | nil => rfl
  | cons part parts ih =>
    obtain ⟨hpart, hrest⟩ := List.forall_mem_cons.mp h
    cases parts with
    | nil => rwa [List.intercalate_singleton]
    | cons next parts =>
      have hcomma : excess [','] = 0 := rfl
      rw [List.intercalate_cons_cons, excess_append, excess_append, hpart, hcomma, ih hrest]
      rfl

/-- A comma is cut exactly if the text in front of it is level. The depth in the whole text is the
one in the part, since the parts that come earlier are level. -/
theorem split_append_comma_iff {before after : List Char} :
    split (before ++ ',' :: after) = split before ++ split after ↔ excess before = 0 := by
  constructor
  · intro hcut
    have hparts : TopLevel (split before ++ split after) := by
      rw [← hcut]
      exact parted_iff_topLevel.mp (parted_split _)
    have hlast : (split before ++ split after).dropLast =
        split before ++ (split after).dropLast :=
      List.dropLast_append_of_ne_nil (splitFrom_ne_nil 0 after)
    have hlevel : ∀ part ∈ split before, excess part = 0 := by
      intro part hpart
      refine excess_eq_zero_iff.mpr (hparts.level part ?_)
      rw [hlast]
      exact List.mem_append_left _ hpart
    have hjoined := excess_intercalate hlevel
    rwa [split, intercalate_splitFrom] at hjoined
  · intro hlevel
    exact splitFrom_append (by omega) after

/-- A text is cut at its top-level commas and nowhere else. The parts are the one list that is not
empty, gives the text when it is joined with commas, has no comma at the top level of a part, and
has level parts up to the last; each such list is cut out of its own join again. A comma of the
whole text is cut exactly if as many parentheses are closed as opened in front of it. -/
theorem split_exactly_at_top_level :
    (∀ text parts, split text = parts ↔
      parts ≠ [] ∧ [','].intercalate parts = text ∧ TopLevel parts) ∧
    (∀ parts, split ([','].intercalate parts) = parts ↔ parts ≠ [] ∧ TopLevel parts) ∧
    ∀ before after, split (before ++ ',' :: after) = split before ++ split after ↔
      before.count '(' = before.count ')' := by
  refine ⟨fun text parts => ?_, fun parts => ?_, fun before after => ?_⟩
  · rw [split_eq_iff, parted_iff_topLevel]
  · rw [split_eq_iff, parted_iff_topLevel]
    exact and_congr_right fun _ => and_iff_right rfl
  · rw [split_append_comma_iff, excess_eq_zero_iff]

/-- Commas below depth zero are not cut, and the next part starts where the depth is zero again. -/
example : split "int) x, y(,Fn(int,int) run,),".toList =
    ["int) x, y(".toList, "Fn(int,int) run".toList, "),".toList] := by decide

/-- Where a text closes exactly what was open in front of it, its first part does so too, and the
later parts are balanced. -/
theorem exists_splitFrom_inside (hd : 0 ≤ depth) (h : Inside (depth + 1) cs) :
    ∃ part parts, splitFrom depth cs = part :: parts ∧ Inside (depth + 1) part ∧
      ∀ later ∈ parts, Balanced later := by
  induction cs generalizing depth with
  | nil => exact ⟨[], [], rfl, h, by simp⟩
  | cons c cs ih =>
    have hpos : 0 < depth + 1 := by omega
    have hrest := (inside_cons_iff hpos).mp h
    rw [splitFrom]
    split
    next hcut =>
      obtain ⟨rfl, rfl⟩ := hcut
      obtain ⟨part, parts, hsplit, hpart, hparts⟩ := ih Int.le_rfl hrest
      rw [hsplit]
      refine ⟨[], part :: parts, rfl, inside_nil_iff.mpr rfl, fun later hlater => ?_⟩
      rcases List.mem_cons.mp hlater with rfl | hmem
      · exact inside_one_iff.mp hpart
      · exact hparts later hmem
    next hcut =>
      have hdepth : depth + 1 + weight c = depth + weight c + 1 := by omega
      rw [hdepth] at hrest
      have hnext : 0 ≤ depth + weight c := by
        have hstart := hrest.pos [] List.nil_prefix
        rw [excess] at hstart
        omega
      obtain ⟨part, parts, hsplit, hpart, hparts⟩ := ih hnext hrest
      rw [hsplit, consFirst]
      refine ⟨c :: part, parts, rfl, (inside_cons_iff hpos).mpr ?_, hparts⟩
      rwa [hdepth]

/-- The parts of a balanced text are balanced. -/
theorem balanced_of_mem_split (h : Balanced cs) (hpart : part ∈ split cs) : Balanced part := by
  obtain ⟨first, parts, hsplit, hfirst, hparts⟩ :=
    exists_splitFrom_inside Int.le_rfl (inside_one_iff.mpr h)
  rw [split, hsplit] at hpart
  rcases List.mem_cons.mp hpart with rfl | hmem
  · exact inside_one_iff.mp hfirst
  · exact hparts part hmem

/-- A parenthesis or a comma. -/
def isMark (c : Char) : Bool := c == '(' || c == ')' || c == ','

/-- The parentheses and commas of a text. -/
def marks (cs : List Char) : List Char := cs.filter isMark

/-- Texts in a row have their marks in a row. -/
@[simp] theorem marks_append (a b : List Char) : marks (a ++ b) = marks a ++ marks b :=
  List.filter_append a b

/-- A character that is no mark counts for nothing. -/
theorem weight_of_not_isMark (h : isMark c = false) : weight c = 0 := by
  have hother : c ≠ '(' ∧ c ≠ ')' := by
    constructor <;> rintro rfl <;> simp [isMark] at h
  rw [weight, if_neg hother.1, if_neg hother.2]

/-- The marks of a text open and close what the text does. -/
theorem excess_marks (cs : List Char) : excess (marks cs) = excess cs := by
  induction cs with
  | nil => rfl
  | cons c cs ih =>
    unfold marks at ih ⊢
    cases hc : isMark c with
    | true => rw [List.filter_cons_of_pos hc, excess, excess, ih]
    | false =>
      rw [List.filter_cons_of_neg (by simp [hc]), excess, ih, weight_of_not_isMark hc,
        Int.zero_add]

/-- A text is balanced if its marks are. -/
theorem balanced_marks_iff : Balanced (marks cs) ↔ Balanced cs := by
  constructor
  · rintro ⟨hlevel, hnonneg⟩
    refine ⟨by rwa [← excess_marks], fun p hp => ?_⟩
    rw [← excess_marks]
    exact hnonneg (marks p) (hp.filter isMark)
  · rintro ⟨hlevel, hnonneg⟩
    refine ⟨by rwa [excess_marks], fun p hp => ?_⟩
    obtain ⟨q, hq, rfl⟩ := List.prefix_filter_iff.mp hp
    have hmarks : excess (q.filter isMark) = excess q := excess_marks q
    rw [hmarks]
    exact hnonneg q hq

/-- A text is whole if its marks are. -/
theorem whole_marks_iff : Whole depth (marks cs) ↔ Whole depth cs := by
  induction cs generalizing depth with
  | nil => rfl
  | cons c cs ih =>
    unfold marks at ih ⊢
    cases hc : isMark c with
    | true => rw [List.filter_cons_of_pos hc, whole_cons_iff, whole_cons_iff, ih]
    | false =>
      have hcomma : ¬(c = ',' ∧ depth = 0) := by
        rintro ⟨rfl, -⟩
        simp [isMark] at hc
      rw [List.filter_cons_of_neg (by simp [hc]), ih, whole_cons_iff, weight_of_not_isMark hc,
        Int.add_zero]
      exact (and_iff_right hcomma).symm

/-- Parts stay parted when some are left out and the others are written anew with the same marks.
-/
theorem Parted.filterMap {f : List Char → Option (List Char)} (h : Parted parts)
    (hf : ∀ part text, f part = some text → marks text = marks part) :
    Parted (parts.filterMap f) := by
  induction parts with
  | nil => trivial
  | cons part parts ih =>
    obtain ⟨hwhole, hlevel, hparts⟩ := h
    cases hpart : f part with
    | none =>
      rw [List.filterMap_cons_none hpart]
      exact ih hparts
    | some text =>
      have hmarks := hf part text hpart
      rw [List.filterMap_cons_some hpart]
      refine ⟨?_, fun hne => ?_, ih hparts⟩
      · rwa [← whole_marks_iff, hmarks, whole_marks_iff]
      · have hmore : parts ≠ [] := fun hnil => hne (by rw [hnil, List.filterMap_nil])
        rw [← excess_marks, hmarks, excess_marks, hlevel hmore]

/-- Parts stay parted when they are written anew with the same marks. -/
theorem Parted.map {f : List Char → List Char} (h : Parted parts)
    (hf : ∀ part, marks (f part) = marks part) : Parted (parts.map f) := by
  rw [← List.filterMap_eq_map]
  refine h.filterMap fun part text htext => ?_
  rw [← Option.some.inj htext, hf]

end Bindery.Signature
