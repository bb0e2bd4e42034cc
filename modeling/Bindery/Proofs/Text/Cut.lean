import Bindery.Text.Blank
import Bindery.Text.Cut
import Mathlib.Data.List.Infix
import Mathlib.Data.List.TakeWhile

/-!
# Cuts at the first occurrence

A cut takes a text apart at the first place where a separator stands. Two occurrences of a
separator can overlap, so the first one is told by the text up to its last character but one. A
separator of one character, or of two different ones, cannot overlap with itself.
-/

namespace Bindery.Text

/-- A front is taken off a text that starts with it. -/
theorem dropFront?_append (front rest : List Char) : dropFront? front (front ++ rest) = some rest :=
  dropFront?_eq_some_iff.mpr rfl

/-- A front cannot be taken exactly where the text does not start with it. -/
theorem dropFront?_eq_none_iff {front text : List Char} :
    dropFront? front text = none ↔ ¬front <+: text := by
  rw [Option.eq_none_iff_forall_ne_some]
  constructor
  · rintro h ⟨rest, rfl⟩
    exact h rest (dropFront?_eq_some_iff.mpr rfl)
  · intro h rest hr
    exact h ⟨rest, (dropFront?_eq_some_iff.mp hr).symm⟩

/-- Whether a front can be taken is whether the text starts with it. -/
theorem isSome_dropFront? {front text : List Char} :
    (dropFront? front text).isSome = true ↔ front <+: text := by
  rw [← not_iff_not, ← dropFront?_eq_none_iff, Bool.not_eq_true, Option.isSome_eq_false_iff,
    Option.isNone_iff_eq_none]

/-- A cut is at the first occurrence of the separator and nowhere else. -/
theorem cutAt?_eq_some_iff {separator text before after : List Char} (hs : separator ≠ []) :
    cutAt? separator text = some (before, after) ↔
      text = before ++ separator ++ after ∧ ¬separator <:+: before ++ separator.dropLast := by
  have hlength : separator.dropLast.length < separator.length := by
    have := List.length_pos_iff.mpr hs
    rw [List.length_dropLast]
    omega
  induction text generalizing before after with
  | nil =>
    have hnone : dropFront? separator [] = none := by
      rw [dropFront?_eq_none_iff]
      exact fun h => hs (List.prefix_nil.mp h)
    simp [cutAt?, hnone, hs]
  | cons c cs ih =>
    cases hd : dropFront? separator (c :: cs) with
    | some rest =>
      have htext := dropFront?_eq_some_iff.mp hd
      simp only [cutAt?, hd, Option.some.injEq, Prod.mk.injEq]
      constructor
      · rintro ⟨rfl, rfl⟩
        refine ⟨htext, fun h => ?_⟩
        have := h.length_le
        rw [List.nil_append] at this
        omega
      · rintro ⟨hcut, hfirst⟩
        cases before with
        | nil =>
          rw [List.nil_append] at hcut
          exact ⟨rfl, List.append_cancel_left (htext.symm.trans hcut)⟩
        | cons b before =>
          -- An earlier occurrence would lie inside the text up to the one that is claimed first.
          have hshort : b :: before ++ separator.dropLast <+: c :: cs := by
            rw [hcut, List.append_assoc]
            exact (List.prefix_append_right_inj _).mpr
              ((List.dropLast_prefix separator).trans (List.prefix_append _ _))
          have hfront : separator <+: b :: before ++ separator.dropLast := by
            refine List.prefix_of_prefix_length_le ⟨rest, htext.symm⟩ hshort ?_
            simp only [List.length_append, List.length_cons, List.length_dropLast]
            omega
          exact absurd hfront.isInfix hfirst
    | none =>
      have hnot := dropFront?_eq_none_iff.mp hd
      simp only [cutAt?, hd, Option.map_eq_some_iff, Prod.exists, Prod.mk.injEq]
      constructor
      · rintro ⟨b, a, hba, rfl, rfl⟩
        obtain ⟨htext, hfirst⟩ := ih.mp hba
        refine ⟨by simp [htext], fun h => ?_⟩
        rw [List.cons_append, List.infix_cons_iff] at h
        refine h.elim (fun hp => hnot ?_) hfirst
        refine hp.trans ?_
        rw [htext, List.append_assoc]
        exact List.cons_prefix_cons.mpr ⟨rfl, (List.prefix_append_right_inj _).mpr
          ((List.dropLast_prefix separator).trans (List.prefix_append _ _))⟩
      · rintro ⟨htext, hfirst⟩
        cases before with
        | nil => exact absurd ⟨after, by simpa using htext.symm⟩ hnot
        | cons b before =>
          simp only [List.cons_append, List.cons.injEq] at htext
          obtain ⟨rfl, htext⟩ := htext
          refine ⟨before, after, ih.mpr ⟨by simpa using htext, fun h => hfirst ?_⟩, rfl, rfl⟩
          rw [List.cons_append]
          exact List.infix_cons h

/-- A cut at one character is at its first occurrence. -/
theorem cutAt?_singleton_eq_some_iff {x : Char} {text before after : List Char} :
    cutAt? [x] text = some (before, after) ↔ text = before ++ x :: after ∧ x ∉ before := by
  rw [cutAt?_eq_some_iff (List.cons_ne_nil x [])]
  simp [List.singleton_infix_iff]

/-- A cut at two different characters is at the first place where they stand side by side. -/
theorem cutAt?_pair_eq_some_iff {x y : Char} (hxy : x ≠ y) {text before after : List Char} :
    cutAt? [x, y] text = some (before, after) ↔
      text = before ++ x :: y :: after ∧ ¬[x, y] <:+: before := by
  have hlast : [x, y] <:+: before ++ [x] ↔ [x, y] <:+: before := by
    rw [List.infix_concat_iff, or_iff_right_iff_imp]
    rintro ⟨rest, hrest⟩
    have := congrArg List.getLast? hrest
    simp [hxy.symm] at this
  rw [cutAt?_eq_some_iff (List.cons_ne_nil x [y])]
  simp [hlast]

/-- A text without the first character of a separator is not cut. -/
theorem cutAt?_eq_none_of_not_mem {x : Char} {separator text : List Char} (h : x ∉ text) :
    cutAt? (x :: separator) text = none := by
  rw [Option.eq_none_iff_forall_ne_some]
  rintro ⟨before, after⟩ hcut
  have htext := ((cutAt?_eq_some_iff (List.cons_ne_nil x separator)).mp hcut).1
  exact h (by simp [htext])

/-- Every text has a field. -/
theorem fields_ne_nil (separator : Char) (text : List Char) : fields separator text ≠ [] := by
  cases text with
  | nil => simp [fields]
  | cons c text =>
    rw [fields]
    split
    · simp
    · split <;> simp

/-- A text without the separator is one field. -/
theorem fields_of_not_mem {separator : Char} {field : List Char} (h : separator ∉ field) :
    fields separator field = [field] := by
  induction field with
  | nil => rfl
  | cons c field ih =>
    rw [List.mem_cons, not_or] at h
    obtain ⟨hc, hfield⟩ := h
    rw [fields, if_neg (Ne.symm hc), ih hfield]

/-- A separator between two texts stands between their fields. -/
theorem fields_append (separator : Char) (front rest : List Char) :
    fields separator (front ++ separator :: rest) =
      fields separator front ++ fields separator rest := by
  induction front with
  | nil => simp [fields]
  | cons c front ih =>
    rw [List.cons_append, fields, fields, ih]
    by_cases hc : c = separator
    · simp [hc]
    · obtain ⟨field, more, hfront⟩ := List.exists_cons_of_ne_nil (fields_ne_nil separator front)
      rw [if_neg hc, if_neg hc, hfront]
      rfl

/-- The first field of a text ends at the first occurrence of the separator. -/
theorem fields_append_cons {separator : Char} {field : List Char} (h : separator ∉ field)
    (rest : List Char) :
    fields separator (field ++ separator :: rest) = field :: fields separator rest := by
  rw [fields_append, fields_of_not_mem h, List.singleton_append]

/-- Parts that were joined with a separator are the fields, if none of them has it. -/
theorem fields_intercalate {separator : Char} {parts : List (List Char)} (hne : parts ≠ [])
    (h : ∀ part ∈ parts, separator ∉ part) :
    fields separator ([separator].intercalate parts) = parts := by
  induction parts with
  | nil => exact absurd rfl hne
  | cons part parts ih =>
    have hpart := h part List.mem_cons_self
    cases parts with
    | nil =>
      rw [List.intercalate_singleton]
      exact fields_of_not_mem hpart
    | cons next rest =>
      have hrest := ih (List.cons_ne_nil next rest) fun p hp => h p (List.mem_cons_of_mem part hp)
      rw [List.intercalate_cons_cons, List.append_assoc, List.singleton_append,
        fields_append_cons hpart, hrest]

/-- Stripping leaves nothing exactly where all is blank. -/
theorem strip_eq_nil_iff {cs : List Char} : strip cs = [] ↔ ∀ c ∈ cs, isBlank c = true := by
  rw [strip, dropFinalBlank, List.reverse_eq_nil_iff, dropBlank, dropBlank,
    List.dropWhile_eq_nil_iff]
  constructor
  · intro h
    rw [← List.dropWhile_eq_nil_iff]
    by_contra hne
    -- The first character that is not dropped is not blank.
    have hhead := List.head_dropWhile_not isBlank hne
    rw [h _ (List.mem_reverse.mpr (List.head_mem hne))] at hhead
    exact Bool.noConfusion hhead
  · intro h c hc
    exact h c ((List.dropWhile_sublist isBlank).subset (List.mem_reverse.mp hc))

end Bindery.Text
