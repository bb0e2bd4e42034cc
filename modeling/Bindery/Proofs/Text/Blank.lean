import Bindery.Text.Blank
import Mathlib.Data.List.Infix
import Mathlib.Data.List.TakeWhile

/-!
# Words and trimmed texts

A word has no blanks, and a trimmed text has none at its two ends. The first word of a text and
what follows it can be put together with one blank between them, and are found again.
-/

namespace Bindery.Text

/-- A text of one or more characters, none of them blank. -/
def IsWord (cs : List Char) : Prop := cs ≠ [] ∧ ∀ c ∈ cs, isBlank c = false

/-- A text of one or more characters of which the first and the last are not blank. -/
def Trimmed (cs : List Char) : Prop :=
  cs ≠ [] ∧ (∀ c ∈ cs.head?, isBlank c = false) ∧ ∀ c ∈ cs.getLast?, isBlank c = false

-- These look at the characters of the text. The instance that is found by itself may be one that
-- looks at all characters there are.
instance (cs : List Char) : Decidable (IsWord cs) :=
  @instDecidableAnd _ _ inferInstance (List.decidableBAll (isBlank · = false) cs)

instance (cs : List Char) : Decidable (Trimmed cs) :=
  @instDecidableAnd _ _ inferInstance
    (@instDecidableAnd _ _ (Option.decidableForallMem cs.head?)
      (Option.decidableForallMem cs.getLast?))

variable {cs word name : List Char}

/-- A text that does not begin with a blank keeps its front. -/
theorem dropBlank_of_head (h : ∀ c ∈ cs.head?, isBlank c = false) : dropBlank cs = cs := by
  cases cs with
  | nil => rfl
  | cons c cs =>
    have hc := h c rfl
    simp [dropBlank, hc]

/-- A text that does not end with a blank keeps its end. -/
theorem dropFinalBlank_of_getLast (h : ∀ c ∈ cs.getLast?, isBlank c = false) :
    dropFinalBlank cs = cs := by
  rw [← List.head?_reverse] at h
  rw [dropFinalBlank, dropBlank_of_head h, List.reverse_reverse]

/-- Nothing is left to drop at the front once the blanks are gone. -/
theorem isBlank_head_dropBlank (cs : List Char) :
    ∀ c ∈ (dropBlank cs).head?, isBlank c = false := by
  intro c hc
  have hnot := List.head?_dropWhile_not isBlank cs
  rw [dropBlank] at hc
  simpa [Option.mem_def.mp hc] using hnot

/-- Nothing is left to drop at the end once the blanks are gone. -/
theorem isBlank_getLast_dropFinalBlank (cs : List Char) :
    ∀ c ∈ (dropFinalBlank cs).getLast?, isBlank c = false := by
  rw [dropFinalBlank, List.getLast?_reverse]
  exact isBlank_head_dropBlank cs.reverse

/-- What is left after blanks are dropped at the end is a beginning of the text. -/
theorem dropFinalBlank_isPrefix (cs : List Char) : dropFinalBlank cs <+: cs := by
  rw [dropFinalBlank, ← List.reverse_suffix, List.reverse_reverse]
  exact List.dropWhile_suffix _

/-- A stripped text begins with no blank. -/
theorem isBlank_head_strip (cs : List Char) : ∀ c ∈ (strip cs).head?, isBlank c = false := by
  -- What is left after the end is dropped is a beginning of what was there.
  have hfront : strip cs <+: dropBlank cs := dropFinalBlank_isPrefix (dropBlank cs)
  intro c hc
  obtain ⟨rest, hrest⟩ := hfront
  refine isBlank_head_dropBlank cs c ?_
  rw [← hrest, List.head?_append, Option.mem_def.mp hc, Option.some_or]
  rfl

/-- A stripped text has no more blanks at its ends. -/
@[simp] theorem strip_strip (cs : List Char) : strip (strip cs) = strip cs := by
  have hfront : dropBlank (strip cs) = strip cs := dropBlank_of_head (isBlank_head_strip cs)
  have hend : dropFinalBlank (strip cs) = strip cs :=
    dropFinalBlank_of_getLast (isBlank_getLast_dropFinalBlank (dropBlank cs))
  rw [strip, hfront, hend]

/-- Stripping a string twice is stripping it once. -/
@[simp] theorem stripped_stripped (s : String) : stripped (stripped s) = stripped s := by
  rw [stripped, toList_stripped, strip_strip, ← stripped]

/-- Stripping leaves exactly the texts as they are that have no blanks at their ends. -/
theorem strip_eq_self_iff : strip cs = cs ↔
    (∀ c ∈ cs.head?, isBlank c = false) ∧ ∀ c ∈ cs.getLast?, isBlank c = false := by
  constructor
  · intro h
    have hhead := isBlank_head_strip cs
    have hlast := isBlank_getLast_dropFinalBlank (dropBlank cs)
    rw [← strip] at hlast
    rw [h] at hhead hlast
    exact ⟨hhead, hlast⟩
  · rintro ⟨hhead, hlast⟩
    rw [strip, dropBlank_of_head hhead, dropFinalBlank_of_getLast hlast]

/-- A trimmed text is left as it is. -/
theorem Trimmed.strip_eq (h : Trimmed cs) : strip cs = cs := strip_eq_self_iff.mpr h.2

/-- A word is trimmed. -/
theorem IsWord.trimmed (h : IsWord cs) : Trimmed cs :=
  ⟨h.1, fun c hc => h.2 c (List.mem_of_mem_head? hc), fun c hc => h.2 c (List.mem_of_getLast? hc)⟩

/-- A word and a trimmed text with a blank between them are a trimmed text. -/
theorem IsWord.trimmed_append (hw : IsWord word) (hn : Trimmed name) :
    Trimmed (word ++ ' ' :: name) := by
  refine ⟨by simp, fun c hc => hw.trimmed.2.1 c ?_, fun c hc => hn.2.2 c ?_⟩
  · rwa [List.head?_append_of_ne_nil _ hw.1] at hc
  · rwa [List.getLast?_append_of_ne_nil _ (List.cons_ne_nil _ _),
      List.getLast?_cons_of_ne_nil hn.1] at hc

/-- A text is what is left of it after stripping, between blanks. -/
theorem exists_blanks_strip (cs : List Char) :
    ∃ front back, cs = front ++ strip cs ++ back ∧ (∀ c ∈ front, isBlank c = true) ∧
      ∀ c ∈ back, isBlank c = true := by
  have hblank : ∀ ds : List Char, ∀ c ∈ ds.takeWhile isBlank, isBlank c = true :=
    fun ds c hc => List.mem_takeWhile_imp hc
  have hfront : cs.takeWhile isBlank ++ dropBlank cs = cs := List.takeWhile_append_dropWhile
  have hback : strip cs ++ ((dropBlank cs).reverse.takeWhile isBlank).reverse = dropBlank cs := by
    rw [strip, dropFinalBlank, ← List.reverse_append, dropBlank, dropBlank,
      List.takeWhile_append_dropWhile, List.reverse_reverse]
  refine ⟨cs.takeWhile isBlank, ((dropBlank cs).reverse.takeWhile isBlank).reverse, ?_,
    hblank cs, fun c hc => hblank _ c (List.mem_reverse.mp hc)⟩
  rw [List.append_assoc, hback, hfront]

/-- What is left after stripping stands in the text in one piece. -/
theorem strip_isInfix (cs : List Char) : strip cs <:+: cs := by
  obtain ⟨front, back, hcs, -, -⟩ := exists_blanks_strip cs
  exact ⟨front, back, hcs.symm⟩

/-- Blanks at the front do not matter when blanks are dropped there. -/
theorem dropBlank_append {front : List Char} (h : ∀ c ∈ front, isBlank c = true)
    (cs : List Char) : dropBlank (front ++ cs) = dropBlank cs :=
  List.dropWhile_append_of_pos h

/-- Blanks at the end do not matter when blanks are dropped there. -/
theorem dropFinalBlank_append {back : List Char} (h : ∀ c ∈ back, isBlank c = true)
    (cs : List Char) : dropFinalBlank (cs ++ back) = dropFinalBlank cs := by
  have hreverse : ∀ c ∈ back.reverse, isBlank c = true := fun c hc => h c (List.mem_reverse.mp hc)
  rw [dropFinalBlank, List.reverse_append, dropBlank_append hreverse, dropFinalBlank]

/-- Stripping takes away the blanks behind a text that has none at its ends. -/
theorem strip_append {back : List Char} (hback : ∀ c ∈ back, isBlank c = true)
    (hhead : ∀ c ∈ cs.head?, isBlank c = false) (hlast : ∀ c ∈ cs.getLast?, isBlank c = false) :
    strip (cs ++ back) = cs := by
  have hend : dropFinalBlank (cs ++ back) = cs := by
    rw [dropFinalBlank_append hback, dropFinalBlank_of_getLast hlast]
  cases cs with
  | nil =>
    have hnone : dropBlank back = [] := List.dropWhile_eq_nil_iff.mpr hback
    rw [strip, List.nil_append, hnone]
    rfl
  | cons c cs =>
    have hkeep : dropBlank (c :: cs ++ back) = c :: cs ++ back :=
      dropBlank_of_head fun d hd => hhead d hd
    rw [strip, hkeep, hend]

/-- What stands in front of a text with another character than blanks is kept when blanks are
dropped at the end. -/
theorem prefix_dropFinalBlank_append {back : List Char} (h : ∃ c ∈ back, isBlank c = false)
    (cs : List Char) : cs <+: dropFinalBlank (cs ++ back) := by
  have hkept : dropBlank back.reverse ≠ [] := by
    obtain ⟨c, hc, hblank⟩ := h
    rw [dropBlank, ne_eq, List.dropWhile_eq_nil_iff]
    intro hall
    have hc' := hall c (List.mem_reverse.mpr hc)
    rw [hblank] at hc'
    exact Bool.noConfusion hc'
  rw [dropFinalBlank, List.reverse_append, dropBlank, List.dropWhile_append, ← dropBlank,
    if_neg (by simpa using hkept), List.reverse_append, List.reverse_reverse]
  exact List.prefix_append _ _

/-- A front of a text is a front of the stripped text exactly if it does not begin with a blank, and
either does not end with one or is not followed by blanks alone. -/
theorem prefix_strip_append_iff {front rest : List Char} :
    front <+: strip (front ++ rest) ↔
      (∀ c ∈ front.head?, isBlank c = false) ∧
        ((∀ c ∈ front.getLast?, isBlank c = false) ∨ ∃ c ∈ rest, isBlank c = false) := by
  cases front with
  | nil => simp
  | cons a front =>
    have hkeep : isBlank a = false → dropBlank (a :: front ++ rest) = a :: front ++ rest :=
      fun ha => dropBlank_of_head (by simpa using ha)
    have hblank : (¬∃ c ∈ rest, isBlank c = false) → ∀ c ∈ rest, isBlank c = true :=
      fun hnone c hc => by_contra fun hc' => hnone ⟨c, hc, by simpa using hc'⟩
    constructor
    · intro h
      obtain ⟨more, hmore⟩ := h
      have ha : isBlank a = false :=
        isBlank_head_strip (a :: front ++ rest) a (by rw [← hmore]; rfl)
      refine ⟨by simpa using ha, or_iff_not_imp_right.mpr fun hnone => ?_⟩
      -- With blanks alone behind it the front is all that is left, and so it has lost nothing.
      have hstrip : strip (a :: front ++ rest) = dropFinalBlank (a :: front) := by
        rw [strip, hkeep ha, dropFinalBlank_append (hblank hnone)]
      rw [hstrip] at hmore
      have hfront : a :: front <+: dropFinalBlank (a :: front) := ⟨more, hmore⟩
      have hsame := (dropFinalBlank_isPrefix (a :: front)).eq_of_length_le hfront.length_le
      have hlast := isBlank_getLast_dropFinalBlank (a :: front)
      rwa [hsame] at hlast
    · rintro ⟨hhead, hend⟩
      have hstrip : strip (a :: front ++ rest) = dropFinalBlank (a :: front ++ rest) := by
        rw [strip, hkeep (by simpa using hhead)]
      rw [hstrip]
      by_cases hrest : ∃ c ∈ rest, isBlank c = false
      · exact prefix_dropFinalBlank_append hrest _
      · have hlast := hend.resolve_right hrest
        rw [dropFinalBlank_append (hblank hrest), dropFinalBlank_of_getLast hlast]

/-- A text holds at most one word when no blank is left in it after stripping. -/
def AtMostOneWord (cs : List Char) : Prop := ∀ c ∈ strip cs, isBlank c = false

/-- A blank that stripping leaves stands between two other characters. -/
theorem exists_sublist_of_mem_strip {b : Char} (hmem : b ∈ strip cs) (hb : isBlank b = true) :
    ∃ a c, [a, b, c].Sublist cs ∧ isBlank a = false ∧ isBlank c = false := by
  obtain ⟨before, after, hsplit⟩ := List.append_of_mem hmem
  have hhead := isBlank_head_strip cs
  have hlast := isBlank_getLast_dropFinalBlank (dropBlank cs)
  rw [← strip] at hlast
  rw [hsplit] at hhead hlast
  have hbefore : before ≠ [] := by
    rintro rfl
    exact absurd ((hhead b rfl).symm.trans hb) Bool.false_ne_true
  have hafter : after ≠ [] := by
    rintro rfl
    exact absurd ((hlast b (List.getLast?_concat ..)).symm.trans hb) Bool.false_ne_true
  rw [List.head?_append_of_ne_nil _ hbefore, List.head?_eq_some_head hbefore] at hhead
  rw [List.getLast?_append_of_ne_nil _ (List.cons_ne_nil b after),
    List.getLast?_cons_of_ne_nil hafter, List.getLast?_eq_some_getLast hafter] at hlast
  refine ⟨before.head hbefore, after.getLast hafter, ?_, hhead _ rfl, hlast _ rfl⟩
  have hinside : [before.head hbefore, b, after.getLast hafter].Sublist (strip cs) := by
    rw [hsplit]
    have hfirst := List.singleton_sublist.mpr (List.head_mem hbefore)
    have hrest := List.singleton_sublist.mpr (List.getLast_mem hafter)
    exact hfirst.append (hrest.cons_cons b)
  exact hinside.trans (strip_isInfix cs).sublist

/-- In a text with at most one word no blank stands between two other characters. -/
theorem AtMostOneWord.isBlank_of_sublist (h : AtMostOneWord cs) {a b c : Char}
    (hsub : [a, b, c].Sublist cs) (ha : isBlank a = false) (hc : isBlank c = false) :
    isBlank b = false := by
  obtain ⟨front, back, hcs, hfront, hback⟩ := exists_blanks_strip cs
  rw [hcs, List.append_assoc] at hsub
  -- Neither end of the three is among the blanks around the text, so all three are inside.
  have hskip : [a, b, c].Sublist (strip cs ++ back) := by
    obtain ⟨p, q, hpq, hp, hq⟩ := List.sublist_append_iff.mp hsub
    cases p with
    | nil => rwa [hpq, List.nil_append]
    | cons x p =>
      obtain ⟨rfl, -⟩ := List.cons.inj hpq
      have hblank := hfront a (hp.subset List.mem_cons_self)
      exact absurd (ha.symm.trans hblank) Bool.false_ne_true
  obtain ⟨p, q, hpq, hp, hq⟩ := List.sublist_append_iff.mp hskip
  rcases List.eq_nil_or_concat q with rfl | ⟨rest, last, rfl⟩
  · rw [List.append_nil] at hpq
    rw [← hpq] at hp
    exact h b (hp.subset (by simp))
  · have hends : [a, b] ++ [c] = (p ++ rest) ++ [last] := by simpa using hpq
    obtain ⟨-, hlast⟩ := List.append_inj' hends rfl
    obtain rfl := List.singleton_inj.mp hlast
    have hblank := hback c (hq.subset (by simp))
    exact absurd (hc.symm.trans hblank) Bool.false_ne_true

/-- A piece of a text with at most one word has at most one word. -/
theorem AtMostOneWord.of_isInfix (h : AtMostOneWord cs) {piece : List Char}
    (hpiece : piece <:+: cs) : AtMostOneWord piece := by
  intro b hb
  by_contra hblank
  obtain ⟨a, c, hsub, ha, hc⟩ := exists_sublist_of_mem_strip hb (by simpa using hblank)
  exact hblank (h.isBlank_of_sublist (hsub.trans hpiece.sublist) ha hc)

/-- The first word in front of a blank is found again. -/
theorem IsWord.takeWhile_append (hw : IsWord word) (rest : List Char) :
    (word ++ ' ' :: rest).takeWhile (!isBlank ·) = word := by
  have hall : ∀ c ∈ word, (!isBlank c) = true := fun c hc => by rw [hw.2 c hc]; rfl
  rw [List.takeWhile_append_of_pos hall, List.takeWhile_cons_of_neg (by decide), List.append_nil]

/-- What follows the first word is found again. -/
theorem IsWord.dropWhile_append (hw : IsWord word) (rest : List Char) :
    (word ++ ' ' :: rest).dropWhile (!isBlank ·) = ' ' :: rest := by
  have hall : ∀ c ∈ word, (!isBlank c) = true := fun c hc => by rw [hw.2 c hc]; rfl
  rw [List.dropWhile_append_of_pos hall, List.dropWhile_cons_of_neg (by decide)]

/-- The beginning of a stripped text up to its first blank is a word, if there is any text. -/
theorem isWord_takeWhile_strip (h : strip cs ≠ []) :
    IsWord ((strip cs).takeWhile (!isBlank ·)) := by
  refine ⟨fun hnil => ?_, fun c hc => ?_⟩
  · cases htext : strip cs with
    | nil => exact h htext
    | cons c rest =>
      have hc : isBlank c = false := isBlank_head_strip cs c (by rw [htext]; rfl)
      simp [htext, hc] at hnil
  · simpa using List.mem_takeWhile_imp hc

/-- What follows the first word of a stripped text is trimmed, once the blanks in front of it are
gone, if there is any. -/
theorem trimmed_dropBlank_dropWhile_strip
    (h : dropBlank ((strip cs).dropWhile (!isBlank ·)) ≠ []) :
    Trimmed (dropBlank ((strip cs).dropWhile (!isBlank ·))) := by
  refine ⟨h, isBlank_head_dropBlank _, fun c hc => ?_⟩
  have hend : dropBlank ((strip cs).dropWhile (!isBlank ·)) <:+ strip cs :=
    (List.dropWhile_suffix _).trans (List.dropWhile_suffix _)
  obtain ⟨front, hfront⟩ := hend
  refine isBlank_getLast_dropFinalBlank (dropBlank cs) c ?_
  change c ∈ (strip cs).getLast?
  rwa [← hfront, List.getLast?_append_of_ne_nil _ h]

end Bindery.Text
