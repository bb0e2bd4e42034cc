import Bindery.Proofs.Text.Lines
import Mathlib.Data.List.Infix

/-!
# Conventions for the ends of lines

The three conventions overlap: a line feed after a carriage return belongs to it, and so a text has
to be read with an eye on what follows each line. What the lines of a text are is told by how the
text is made of them: an end after each line, and nothing else that could be one. In a text of one
convention there is never a doubt. A carriage return is followed by a line feed at every end of a
line or at none, since lines have no such character themselves. So lines that were put together
under a convention are found again, if the last one can be told from the end of the text.
-/

namespace Bindery.Lines

/-- A line is unbroken when no carriage return and no line feed stands in it. -/
def Unbroken (line : List Char) : Prop := '\r' ∉ line ∧ '\n' ∉ line

/-- A convention for the ends of lines. -/
inductive Newline
  | lineFeed
  | carriageReturn
  | both
  deriving DecidableEq, Repr

namespace Newline

/-- What ends a line. -/
def text : Newline → String
  | lineFeed => "\n"
  | carriageReturn => "\r"
  | both => "\r\n"

/-- Lines in one text, with or without an end of the last one. -/
def join (e : Newline) (final : Bool) (lines : List String) : String :=
  e.text.intercalate lines ++ if final then e.text else ""

end Newline

/-- Lines can be found again in a text: they are unbroken, and there is a last one that is not
empty. -/
structure Separable (lines : List String) : Prop where
  /-- The lines are unbroken. -/
  unbroken : ∀ line ∈ lines, Unbroken line.toList
  /-- The last line is not empty. -/
  last : ∃ line, lines.getLast? = some line ∧ line ≠ ""

/-- A text is some lines with an end after each, if need be without one after the last. A carriage
return is no end where a line feed follows it. -/
inductive Written : List (List Char) → List Char → Prop
  | nothing : Written [] []
  | last {line : List Char} (hline : Unbroken line) (hne : line ≠ []) : Written [line] line
  | ended (e : Newline) {line rest : List Char} {lines : List (List Char)} (hline : Unbroken line)
    (hrest : e = .carriageReturn → rest.head? ≠ some '\n') (h : Written lines rest) :
    Written (line :: lines) (line ++ (e.text.toList ++ rest))

variable {e : Newline} {final : Bool} {line text : List Char} {lines : List String}

/-- An unbroken line goes on with a character that ends no line. -/
theorem unbroken_cons_iff {c : Char} :
    Unbroken (c :: line) ↔ (c ≠ '\r' ∧ c ≠ '\n') ∧ Unbroken line := by
  simp only [Unbroken, List.mem_cons, not_or, ne_comm (a := '\r'), ne_comm (a := '\n')]
  tauto

/-- A line that is ended comes first, unless a line feed comes after its carriage return. -/
theorem ofText_append_text (hline : Unbroken line) {rest : List Char}
    (hrest : e = .carriageReturn → rest.head? ≠ some '\n') :
    ofText (line ++ (e.text.toList ++ rest)) = line :: ofText rest := by
  induction line with
  | nil =>
    rw [List.nil_append]
    cases e with
    | lineFeed => exact ofText_feed rest
    | both => exact ofText_return_feed rest
    | carriageReturn =>
      cases rest with
      | nil => rfl
      | cons c rest =>
        have hc : c ≠ '\n' := by simpa using hrest rfl
        exact ofText_return hc rest
  | cons c line ih =>
    obtain ⟨⟨hr, hn⟩, hline⟩ := unbroken_cons_iff.mp hline
    rw [List.cons_append, ofText_other hr hn, ih hline]
    rfl

/-- An unbroken text that is not empty is one line, whatever other separators stand in it. -/
theorem ofText_of_unbroken (hline : Unbroken line) (hne : line ≠ []) : ofText line = [line] := by
  induction line with
  | nil => exact absurd rfl hne
  | cons c line ih =>
    obtain ⟨⟨hr, hn⟩, hline⟩ := unbroken_cons_iff.mp hline
    rw [ofText_other hr hn]
    cases line with
    | nil => rfl
    | cons d line => rw [ih hline (List.cons_ne_nil d line)]; rfl

/-- Lines of which a text was made are its lines. -/
theorem Written.ofText_eq {lines : List (List Char)} (h : Written lines text) :
    ofText text = lines := by
  induction h with
  | nothing => rfl
  | last hline hne => exact ofText_of_unbroken hline hne
  | ended e hline hrest _ ih => rw [ofText_append_text hline hrest, ih]

/-- A character that ends no line belongs to the first line of a text. -/
theorem Written.extend {c : Char} (hr : c ≠ '\r') (hn : c ≠ '\n') {lines : List (List Char)}
    (h : Written lines text) : Written (extend [c] lines) (c :: text) := by
  have hfirst : ∀ {line}, Unbroken line → Unbroken (c :: line) := fun hline =>
    unbroken_cons_iff.mpr ⟨⟨hr, hn⟩, hline⟩
  cases h with
  | nothing => exact .last (hfirst ⟨List.not_mem_nil, List.not_mem_nil⟩) (List.cons_ne_nil c [])
  | last hline hne => exact .last (hfirst hline) (List.cons_ne_nil c _)
  | ended e hline hrest h => exact .ended e (hfirst hline) hrest h

/-- Every text is made of its lines. -/
theorem written_ofText (text : List Char) : Written (ofText text) text := by
  have hnil : Unbroken [] := ⟨List.not_mem_nil, List.not_mem_nil⟩
  induction text using ofText.induct with
  | case1 => exact .nothing
  | case2 cs ih =>
    rw [ofText_return_feed]
    exact .ended .both hnil (by simp) ih
  | case3 c cs hpair hend ih =>
    rw [ofText, if_pos hend]
    · rcases hend with rfl | rfl
      · refine .ended .carriageReturn hnil (fun _ hhead => ?_) ih
        obtain ⟨rest, rfl⟩ := List.head?_eq_some_iff.mp hhead
        exact hpair rest rfl rfl
      · exact .ended .lineFeed hnil (by simp) ih
    · exact hpair
  | case4 c cs _ hend ih =>
    rw [not_or] at hend
    rw [ofText_other hend.1 hend.2]
    exact ih.extend hend.1 hend.2

/-- A text of two lines or more is the first one, its end, and the text of the others. -/
theorem toList_join_cons_cons (e : Newline) (final : Bool) (first next : String)
    (lines : List String) :
    (e.join final (first :: next :: lines)).toList =
      first.toList ++ (e.text.toList ++ (e.join final (next :: lines)).toList) := by
  simp [Newline.join, String.toList_intercalate]

/-- Where carriage returns end lines no line feed stands in the text. -/
theorem feed_not_mem_join (final : Bool) (h : ∀ line ∈ lines, Unbroken line.toList) :
    '\n' ∉ (Newline.carriageReturn.join final lines).toList := by
  induction lines with
  | nil => cases final <;> decide
  | cons first lines ih =>
    obtain ⟨hfirst, hlines⟩ := List.forall_mem_cons.mp h
    cases lines with
    | nil => cases final <;> simp [Newline.join, Newline.text, hfirst.2]
    | cons next lines =>
      have hrest := ih hlines
      rw [toList_join_cons_cons]
      simp [Newline.text, hfirst.2, hrest]

/-- Lines that were joined are what the text is made of. -/
theorem written_join (e : Newline) (final : Bool) (h : Separable lines) :
    Written (lines.map String.toList) (e.join final lines).toList := by
  obtain ⟨hunbroken, last, hlast, hne⟩ := h
  induction lines with
  | nil => exact nomatch hlast
  | cons first lines ih =>
    obtain ⟨hfirst, hlines⟩ := List.forall_mem_cons.mp hunbroken
    cases lines with
    | nil =>
      obtain rfl : first = last := by simpa using hlast
      have hnil : first.toList ≠ [] := by simpa using hne
      cases final with
      | false => simpa [Newline.join] using Written.last hfirst hnil
      | true =>
        have hended : Written [first.toList] (first.toList ++ (e.text.toList ++ [])) :=
          .ended e hfirst (by simp) .nothing
        simpa [Newline.join] using hended
    | cons next lines =>
      have hrest := ih hlines (by simpa using hlast)
      rw [toList_join_cons_cons]
      refine .ended e hfirst ?_ hrest
      rintro rfl hhead
      exact feed_not_mem_join final hlines (List.mem_of_mem_head? hhead)

/-- A file of lines that can be found again delivers them. -/
theorem ofBytes_join (e : Newline) (final : Bool) {lines : List String} (h : Separable lines) :
    ofBytes (Utf8.encode (e.join final lines)) = ⟨lines.map String.toList, none⟩ := by
  rw [ofBytes_encode, (written_join e final h).ofText_eq]

/-- Line separators of other kinds do not end a line. -/
example : ofText "a\u2028b\u0085c\x0bd\r\n\re".toList =
    ["a\u2028b\u0085c\x0bd".toList, [], ['e']] := by
  decide +kernel

/-- No carriage return is left in a text whose terminators are line feeds. -/
theorem return_not_mem_unify (waiting : Bool) (cs : List Char) :
    '\r' ∉ (unify waiting cs).1 := by
  induction cs generalizing waiting with
  | nil => simp [unify]
  | cons c cs ih =>
    rw [unify]
    by_cases hr : c = '\r'
    · rw [if_pos hr]
      cases waiting <;> simp [ih true]
    · rw [if_neg hr]
      by_cases hn : c = '\n'
      · rw [if_pos hn]
        simp [ih false]
      · rw [if_neg hn]
        cases waiting <;> simp [ih false, Ne.symm hr]

/-- What a text without carriage returns is cut into is unbroken. -/
theorem unbroken_cut {text : List Char} (h : '\r' ∉ text) :
    (∀ line ∈ (cut text).1, Unbroken line) ∧ Unbroken (cut text).2 := by
  induction text with
  | nil => simp [cut, Unbroken]
  | cons c text ih =>
    rw [List.mem_cons, not_or] at h
    have hrest := ih h.2
    rw [cut]
    generalize cut text = p at hrest
    obtain ⟨lines, left⟩ := p
    by_cases hc : c = '\n'
    · rw [if_pos hc]
      simpa [Unbroken] using hrest
    · rw [if_neg hc]
      have hr : c ≠ '\r' := Ne.symm h.1
      cases lines with
      | nil => simpa [consLine, unbroken_cons_iff, hr, hc] using hrest
      | cons line lines => simpa [consLine, unbroken_cons_iff, hr, hc] using hrest

/-- An unbroken line that has begun goes on unbroken. -/
theorem unbroken_continueLine {begun : List Char} (hbegun : Unbroken begun)
    {p : List (List Char) × List Char} (hp : (∀ line ∈ p.1, Unbroken line) ∧ Unbroken p.2) :
    (∀ line ∈ (continueLine begun p).1, Unbroken line) ∧ Unbroken (continueLine begun p).2 := by
  have happend : ∀ line, Unbroken line → Unbroken (begun ++ line) := by
    intro line hline
    simp [Unbroken, hbegun.1, hbegun.2, hline.1, hline.2]
  obtain ⟨lines, left⟩ := p
  cases lines with
  | nil => exact ⟨by simp [continueLine], happend left hp.2⟩
  | cons line lines =>
    obtain ⟨hline, hlines⟩ := List.forall_mem_cons.mp hp.1
    exact ⟨List.forall_mem_cons.mpr ⟨happend line hline, hlines⟩, hp.2⟩

/-- Lines that are delivered are unbroken, also those before a fault. -/
theorem unbroken_deliver {carry : Carry} (hbegun : Unbroken carry.begun)
    (parts : List (List UInt8)) : ∀ line ∈ (deliver carry parts).lines, Unbroken line := by
  induction parts generalizing carry with
  | nil =>
    rw [deliver, finish]
    split
    · simp
    · dsimp only
      split
      · simpa using hbegun
      · simp
  | cons piece parts ih =>
    rw [deliver]
    split
    · simp
    next cs kept _ =>
    have hcontinued := unbroken_continueLine hbegun
      (unbroken_cut (return_not_mem_unify carry.waiting cs))
    have hlater := @ih ⟨kept, (unify carry.waiting cs).2,
      (continueLine carry.begun (cut (unify carry.waiting cs).1)).2⟩ hcontinued.2
    intro line hline
    rcases List.mem_append.mp hline with hfirst | hrest
    · exact hcontinued.1 line hfirst
    · exact hlater line hrest

/-- The lines of a file are unbroken. -/
theorem unbroken_ofBytes (bytes : List UInt8) : ∀ line ∈ (ofBytes bytes).lines, Unbroken line :=
  unbroken_deliver ⟨List.not_mem_nil, List.not_mem_nil⟩ (pieces bytes)

end Bindery.Lines
