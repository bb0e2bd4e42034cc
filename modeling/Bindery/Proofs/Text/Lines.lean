import Bindery.Proofs.Text.Utf8
import Bindery.Text.Lines

/-!
# The lines delivered are the lines of the text

The lines of a text are defined on the whole text, with no pieces and nothing carried. A reader
that has carried some state over a piece stands before the rest of the text with the same lines
still to come, and so the pieces of a file can be read one after another. A file is delivered
without a fault exactly when its bytes write a text.
-/

namespace Bindery.Lines

/-- Lines that continue a line which has begun. -/
def extend (begun : List Char) : List (List Char) → List (List Char)
  | [] => if begun.isEmpty then [] else [begun]
  | line :: lines => (begun ++ line) :: lines

/-- The lines of a text. A line feed, a carriage return, and the two of them together each end a
line, and so does the end of the text if it comes after something else. -/
def ofText : List Char → List (List Char)
  | [] => []
  | '\r' :: '\n' :: cs => [] :: ofText cs
  | c :: cs => if c = '\r' ∨ c = '\n' then [] :: ofText cs else extend [c] (ofText cs)

/-- The carriage return that waits, if one does. -/
def held (waiting : Bool) : List Char := if waiting then ['\r'] else []

/-- Nothing has begun a line. -/
@[simp] theorem extend_nil_left (lines : List (List Char)) : extend [] lines = lines := by
  cases lines <;> rfl

/-- A line that begins in two parts. -/
theorem extend_extend (a b : List Char) (lines : List (List Char)) (hb : b ≠ []) :
    extend a (extend b lines) = extend (a ++ b) lines := by
  cases lines with
  | nil => simp [extend, hb]
  | cons line lines => simp [extend]

/-- The cut text goes on after nothing. -/
@[simp] theorem continueLine_nil_left (p : List (List Char) × List Char) :
    continueLine [] p = p := by
  obtain ⟨lines, left⟩ := p
  cases lines <;> rfl

/-- A line that ends at once ends what has begun. -/
@[simp] theorem continueLine_cons_nil (begun : List Char) (lines : List (List Char))
    (left : List Char) : continueLine begun ([] :: lines, left) = (begun :: lines, left) := by
  rw [continueLine, List.append_nil]

/-- One more character before the cut text belongs to the line that has begun. -/
theorem continueLine_consLine (begun : List Char) (c : Char)
    (p : List (List Char) × List Char) :
    continueLine begun (consLine c p) = continueLine (begun ++ [c]) p := by
  obtain ⟨lines, left⟩ := p
  cases lines <;> simp [continueLine, consLine]

/-- A carriage return ends a line, with the line feed after it if there is one. -/
theorem ofText_return_feed (cs : List Char) : ofText ('\r' :: '\n' :: cs) = [] :: ofText cs := by
  rw [ofText]

/-- A line feed ends a line. -/
theorem ofText_feed (cs : List Char) : ofText ('\n' :: cs) = [] :: ofText cs := by
  rw [ofText, if_pos (.inr rfl)]
  simp

/-- A carriage return alone ends a line. -/
theorem ofText_return {c : Char} (hc : c ≠ '\n') (cs : List Char) :
    ofText ('\r' :: c :: cs) = [] :: ofText (c :: cs) := by
  rw [ofText, if_pos (.inl rfl)]
  intro _ _ h
  exact hc (List.cons.inj h).1

/-- Any other character belongs to a line. -/
theorem ofText_other {c : Char} (hr : c ≠ '\r') (hn : c ≠ '\n') (cs : List Char) :
    ofText (c :: cs) = extend [c] (ofText cs) := by
  rw [ofText, if_neg (by simp [hr, hn])]
  exact fun _ h => absurd h hr

/-- The lines that a text ends, and the line that it leaves begun. -/
def ended (waiting : Bool) (begun cs : List Char) : List (List Char) × List Char :=
  continueLine begun (cut (unify waiting cs).1)

/-- A carriage return waits. -/
theorem ended_return (begun cs : List Char) :
    ended false begun ('\r' :: cs) = ended true begun cs := by
  simp [ended, unify]

/-- A line feed ends the line. -/
theorem ended_feed (begun cs : List Char) :
    ended false begun ('\n' :: cs) =
      (begun :: (ended false [] cs).1, (ended false [] cs).2) := by
  simp [ended, unify, cut]

/-- Any other character goes to the line. -/
theorem ended_other {c : Char} (hr : c ≠ '\r') (hn : c ≠ '\n') (begun cs : List Char) :
    ended false begun (c :: cs) = ended false (begun ++ [c]) cs := by
  simp [ended, unify, cut, hr, hn, continueLine_consLine]

/-- A line feed after a carriage return that waits stands for both. -/
theorem unify_true_feed (cs : List Char) : unify true ('\n' :: cs) = unify false ('\n' :: cs) := by
  simp [unify]

/-- A carriage return that waits ends its line before any other character. -/
theorem unify_true_of_ne {c : Char} (hn : c ≠ '\n') (cs : List Char) :
    unify true (c :: cs) = ('\n' :: (unify false (c :: cs)).1, (unify false (c :: cs)).2) := by
  by_cases hr : c = '\r' <;> simp [unify, hr, hn]

/-- The same for the lines that are ended. -/
theorem ended_true_feed (begun cs : List Char) :
    ended true begun ('\n' :: cs) = ended false begun ('\n' :: cs) := by
  rw [ended, unify_true_feed, ended]

/-- The lines that are ended after a carriage return that waits, before any other character. -/
theorem ended_true_of_ne {c : Char} (hn : c ≠ '\n') (begun cs : List Char) :
    ended true begun (c :: cs) =
      (begun :: (ended false [] (c :: cs)).1, (ended false [] (c :: cs)).2) := by
  simp [ended, unify_true_of_ne hn, cut]

/-- The lines that a piece of text ends, and those ahead after it, are those that were ahead. -/
theorem extend_ofText_append (waiting : Bool) (begun cs more : List Char) :
    extend begun (ofText (held waiting ++ (cs ++ more))) =
      (ended waiting begun cs).1 ++
        extend (ended waiting begun cs).2 (ofText (held (unify waiting cs).2 ++ more)) := by
  have hbegin : ∀ begun lines, extend begun ([] :: lines) = begun :: lines := by
    simp [extend]
  induction cs generalizing waiting begun with
  | nil => simp [unify, ended, cut, continueLine]
  | cons c cs ih =>
    -- First the case that nothing waits; a carriage return that waits comes down to it.
    have hfree : ∀ begun, extend begun (ofText (c :: (cs ++ more))) =
        (ended false begun (c :: cs)).1 ++ extend (ended false begun (c :: cs)).2
          (ofText (held (unify false (c :: cs)).2 ++ more)) := by
      intro begun
      by_cases hr : c = '\r'
      · subst hr
        rw [ended_return]
        simpa [held, unify] using ih true begun
      by_cases hn : c = '\n'
      · subst hn
        have hrest := ih false []
        rw [extend_nil_left] at hrest
        rw [ended_feed, ofText_feed, hbegin]
        simpa [held, unify] using hrest
      · rw [ended_other hr hn, ofText_other hr hn, extend_extend _ _ _ (List.cons_ne_nil c [])]
        simpa [held, unify, hr, hn] using ih false (begun ++ [c])
    rw [List.cons_append]
    cases waiting with
    | false => exact hfree begun
    | true =>
      by_cases hn : c = '\n'
      · subst hn
        have hboth :
            ofText (held true ++ '\n' :: (cs ++ more)) = ofText ('\n' :: (cs ++ more)) := by
          rw [ofText_feed]
          exact ofText_return_feed _
        rw [hboth, hfree, ended_true_feed, unify_true_feed]
      · have halone : ofText (held true ++ c :: (cs ++ more)) = [] :: ofText (c :: (cs ++ more)) :=
          ofText_return hn _
        have hrest := hfree []
        rw [extend_nil_left] at hrest
        rw [halone, hbegin, hrest, ended_true_of_ne hn, unify_true_of_ne hn, List.cons_append]

/-- The pieces of a file are its bytes. -/
theorem flatten_pieces (bytes : List UInt8) : (pieces bytes).flatten = bytes := by
  induction bytes using pieces.induct with
  | case1 bytes h => simp_all [pieces]
  | case2 bytes h ih =>
    rw [pieces, if_neg h, List.flatten_cons, ih, List.take_append_drop]

/-- At the end of the file what is begun is a line if it is not empty or if it was ended. -/
theorem finish_eq (waiting : Bool) (begun : List Char) :
    finish ⟨[], waiting, begun⟩ = ⟨extend begun (ofText (held waiting)), none⟩ := by
  cases waiting <;> cases begun <;> simp [finish, Utf8.unfinished?, held, ofText, extend]

/-- A piece that can be read delivers the lines that it ends, and then the rest is delivered. -/
theorem deliver_cons_of_run? {c : Carry} {piece : List UInt8} {cs : List Char}
    {kept : List UInt8} (h : Utf8.run? c.kept piece = some (cs, kept))
    (rest : List (List UInt8)) :
    deliver c (piece :: rest) =
      let later := deliver ⟨kept, (unify c.waiting cs).2, (ended c.waiting c.begun cs).2⟩ rest
      ⟨(ended c.waiting c.begun cs).1 ++ later.lines, later.fault⟩ := by
  rw [← Utf8.toOption_feed c.kept 0] at h
  rw [deliver]
  cases hf : Utf8.feed c.kept 0 piece with
  | error f => simp [hf, Except.toOption] at h
  | ok found =>
    obtain rfl : found = (cs, kept) := by simpa [hf, Except.toOption] using h
    rfl

/-- A piece that cannot be read ends the delivery with a fault. -/
theorem fault_deliver_cons_of_run? {c : Carry} {piece : List UInt8}
    (h : Utf8.run? c.kept piece = none) (rest : List (List UInt8)) :
    (deliver c (piece :: rest)).fault ≠ none := by
  rw [← Utf8.toOption_feed c.kept 0] at h
  rw [deliver]
  cases hf : Utf8.feed c.kept 0 piece with
  | error f => simp
  | ok found => simp [hf, Except.toOption] at h

/-- Pieces that are read to the end deliver the lines that were ahead. -/
theorem deliver_of_run? {c : Carry} {parts : List (List UInt8)} {cs : List Char}
    (h : Utf8.run? c.kept parts.flatten = some (cs, [])) :
    deliver c parts = ⟨extend c.begun (ofText (held c.waiting ++ cs)), none⟩ := by
  induction parts generalizing c cs with
  | nil =>
    obtain ⟨kept, waiting, begun⟩ := c
    obtain ⟨rfl, rfl⟩ : [] = cs ∧ kept = [] := by simpa [Utf8.run?] using h
    rw [deliver, finish_eq, List.append_nil]
  | cons piece rest ih =>
    rw [List.flatten_cons, Utf8.run?_append] at h
    cases hpiece : Utf8.run? c.kept piece with
    | none => simp [hpiece] at h
    | some found =>
      obtain ⟨ds, kept⟩ := found
      simp only [hpiece, Option.bind_some, Option.map_eq_some_iff, Prod.exists,
        Prod.mk.injEq] at h
      obtain ⟨es, last, hrest, rfl, rfl⟩ := h
      rw [deliver_cons_of_run? hpiece, ih hrest, extend_ofText_append]

/-- What is delivered without a fault was read to the end. -/
theorem exists_run?_of_deliver {c : Carry} {parts : List (List UInt8)}
    (h : (deliver c parts).fault = none) :
    ∃ cs, Utf8.run? c.kept parts.flatten = some (cs, []) := by
  induction parts generalizing c with
  | nil =>
    obtain ⟨kept, waiting, begun⟩ := c
    cases kept with
    | nil => exact ⟨[], rfl⟩
    | cons lead more => simp [deliver, finish, Utf8.unfinished?] at h
  | cons piece rest ih =>
    cases hpiece : Utf8.run? c.kept piece with
    | none => exact absurd h (fault_deliver_cons_of_run? hpiece rest)
    | some found =>
      obtain ⟨ds, kept⟩ := found
      rw [deliver_cons_of_run? hpiece] at h
      obtain ⟨es, hes⟩ := ih h
      refine ⟨ds ++ es, ?_⟩
      rw [List.flatten_cons, Utf8.run?_append, hpiece, Option.bind_some]
      simp only [hes, Option.map_some]

/-- A file that writes a text delivers the lines of this text. -/
theorem ofBytes_encode (text : String) :
    ofBytes (Utf8.encode text) = ⟨ofText text.toList, none⟩ := by
  have hrun : Utf8.run? [] (pieces (Utf8.encode text)).flatten = some (text.toList, []) := by
    rw [flatten_pieces]
    exact Utf8.run?_flatMap text.toList
  rw [ofBytes, deliver_of_run? hrun, extend_nil_left]
  rfl

/-- A file is delivered without a fault exactly if it writes a text. -/
theorem fault_ofBytes_eq_none_iff {bytes : List UInt8} :
    (ofBytes bytes).fault = none ↔ ∃ text, bytes = Utf8.encode text := by
  constructor
  · intro h
    obtain ⟨cs, hcs⟩ := exists_run?_of_deliver h
    rw [flatten_pieces] at hcs
    refine ⟨String.ofList cs, ?_⟩
    rw [Utf8.encode, String.toList_ofList]
    exact Utf8.run?_eq_some_nil_iff.mp hcs
  · rintro ⟨text, rfl⟩
    rw [ofBytes_encode]

end Bindery.Lines
