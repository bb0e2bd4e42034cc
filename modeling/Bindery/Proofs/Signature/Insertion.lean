import Bindery.Proofs.Signature.RoundTrip

/-!
# Parameter lists in a row

Behind a text that closes as many parentheses as it opens, a comma is a top-level one, whatever the
text did in between. So the parameters of two texts with such a comma between them are those of the
first and then those of the second. A part with at most one word gives no parameter, and neither do
the parts into which its own commas may cut it; putting it into a list therefore changes nothing.
-/

namespace Bindery.Signature

variable {types : TypeMap} {part : List Char}

/-- A part is put into a list at the top level: alone into a blank list, in front of the first part,
behind the last one, or between two others. -/
inductive Inserts (part : List Char) : List Char → List Char → Prop
  | alone {list : List Char} (h : Text.strip list = []) : Inserts part list part
  | front (list : List Char) : Inserts part list (part ++ ',' :: list)
  | back {list : List Char} (h : list.count '(' = list.count ')') :
    Inserts part list (list ++ ',' :: part)
  | between {before : List Char} (h : before.count '(' = before.count ')') (after : List Char) :
    Inserts part (before ++ ',' :: after) (before ++ ',' :: (part ++ ',' :: after))

/-- A part is dropped exactly if it has at most one word. -/
theorem read?_eq_none_iff : Parameter.read? types part = none ↔ Text.AtMostOneWord part := by
  have hname : Text.dropBlank ((Text.strip part).dropWhile (!Text.isBlank ·)) = [] ↔
      Text.AtMostOneWord part := by
    rw [Text.dropBlank, List.dropWhile_eq_nil_iff]
    constructor
    · intro hblank
      -- A blank rest would end the stripped text with a blank, so nothing follows the first word.
      have hnil : (Text.strip part).dropWhile (!Text.isBlank ·) = [] := by
        by_contra hne
        obtain ⟨front, hfront⟩ := List.dropWhile_suffix (!Text.isBlank ·) (l := Text.strip part)
        have hlast := Text.isBlank_getLast_dropFinalBlank (Text.dropBlank part)
        rw [← Text.strip, ← hfront, List.getLast?_append_of_ne_nil _ hne,
          List.getLast?_eq_some_getLast hne] at hlast
        have hend := hblank _ (List.getLast_mem hne)
        exact absurd ((hlast _ rfl).symm.trans hend) Bool.false_ne_true
      intro c hc
      simpa using List.dropWhile_eq_nil_iff.mp hnil c hc
    · intro h
      have hnil : (Text.strip part).dropWhile (!Text.isBlank ·) = [] :=
        List.dropWhile_eq_nil_iff.mpr fun c hc => by rw [h c hc]; rfl
      simp [hnil]
  rw [← hname]
  unfold Parameter.read?
  dsimp only
  split
  next hnil => exact iff_of_true rfl (List.isEmpty_iff.mp hnil)
  next hne => exact iff_of_false (Option.some_ne_none _) fun hnil => hne (List.isEmpty_iff.mpr hnil)

/-- A text with at most one word has no parameters. -/
theorem parameters_of_atMostOneWord (h : Text.AtMostOneWord part) : parameters types part = [] := by
  rw [parameters_eq_split, List.filterMap_eq_nil_iff]
  intro piece hpiece
  exact read?_eq_none_iff.mpr (h.of_isInfix (isInfix_of_mem_splitFrom hpiece))

/-- A text that is level and another one behind a comma have the parameters of the first and then
those of the second. -/
theorem parameters_append {first : List Char} (h : first.count '(' = first.count ')')
    (second : List Char) :
    parameters types (first ++ ',' :: second) =
      parameters types first ++ parameters types second := by
  have hsplit : split (first ++ ',' :: second) = split first ++ split second :=
    split_append_comma_iff.mpr (excess_eq_zero_iff.mpr h)
  rw [parameters_eq_split, hsplit, List.filterMap_append, ← parameters_eq_split,
    ← parameters_eq_split]

/-- Dropping a part is local: the parameters of lists in a row are those of the single lists, and a
part that is level and has at most one word changes no parameters where it is put in or taken out.
-/
theorem dropping_is_local (types : TypeMap) :
    (∀ first second : List Char, first.count '(' = first.count ')' →
      parameters types (first ++ ',' :: second) =
        parameters types first ++ parameters types second) ∧
    ∀ part : List Char, Text.AtMostOneWord part → part.count '(' = part.count ')' →
      ∀ list longer, Inserts part list longer →
        parameters types longer = parameters types list := by
  refine ⟨fun first second h => parameters_append h second, ?_⟩
  intro part hword hlevel list longer hinserts
  have hnone : parameters types part = [] := parameters_of_atMostOneWord hword
  cases hinserts with
  | alone hblank =>
    have hlist : Text.AtMostOneWord list := by simp [Text.AtMostOneWord, hblank]
    rw [hnone, parameters_of_atMostOneWord hlist]
  | front => rw [parameters_append hlevel, hnone, List.nil_append]
  | back h => rw [parameters_append h, hnone, List.append_nil]
  | between h after =>
    rw [parameters_append h, parameters_append hlevel, hnone, List.nil_append, parameters_append h]

/-- A word between two parameters is dropped, also if one of them opens too few parentheses. -/
example : parameters .header "int) x(, (a,b), float y".toList =
    parameters .header "int) x(, float y".toList := by decide

end Bindery.Signature
