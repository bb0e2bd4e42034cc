import Bindery.Text.Blank
import Bindery.Text.Half
import Mathlib.Data.List.Basic
import Mathlib.Data.List.TakeWhile

/-!
# Halves are found where spellings differ

Every string is the text of its code points, in which there are no halves, however halves are
spelled. The plain spelling of a half is the replacement character and the numbered one is not, so
these two spellings of a text differ at its halves and nowhere else. By induction on the code points
the search goes past those in front of the first half, and then counts the halves that follow it.

Two strings that are spellings of one text stay so under whatever does not look at halves: texts put
together, the blanks at the ends taken off, a comparison with a word in which there are none.
-/

namespace Bindery.Text

/-- The code points of a string. -/
def points (s : String) : List Nat := s.toList.map Char.toNat

/-- Strings with the same code points are the same. -/
theorem points_injective : Function.Injective points := by
  intro s t h
  have hchars : s.toList = t.toList :=
    List.map_injective_iff.mpr (fun c d hcd => Char.toNat_inj.mp hcd) h
  exact String.toList_inj.mp hchars

/-- A code point is a half in the range of halves. -/
theorem isHalf_iff {n : Nat} : isHalf n = true ↔ 0xd800 ≤ n ∧ n < 0xe000 := by
  rw [isHalf, Bool.and_eq_true, decide_eq_true_iff, decide_eq_true_iff]

/-- A code point of a character is no half of a surrogate pair. -/
theorem isHalf_toNat (c : Char) : isHalf c.toNat = false := by
  have hvalid : c.toNat < 0xd800 ∨ 0xdfff < c.toNat ∧ c.toNat < 0x110000 := c.valid
  rw [← Bool.not_eq_true, isHalf_iff]
  omega

/-- The text of the code points of a string is the string, in every spelling. -/
theorem ofPoints_points (spelling : Spelling) (s : String) : ofPoints spelling (points s) = s := by
  simp [ofPoints, points, isHalf_toNat, Function.comp_def, Char.ofNat_toNat]

/-- The character of a half in the numbered spelling tells its number. -/
theorem toNat_numbered {n : Nat} (h : isHalf n = true) :
    (Spelling.numbered n).toNat = 0xf0000 + n := by
  have hrange := isHalf_iff.mp h
  have hvalid : (0xf0000 + n).isValidChar := Or.inr ⟨by omega, by omega⟩
  rw [Spelling.numbered, Char.ofNat, dif_pos hvalid]
  rfl

/-- The two spellings of a half differ. -/
theorem plain_ne_numbered {n : Nat} (h : isHalf n = true) :
    Spelling.plain n ≠ Spelling.numbered n := by
  intro heq
  have hplain : (Spelling.plain n).toNat = 0xfffd := rfl
  rw [heq, toNat_numbered h] at hplain
  have hrange := isHalf_iff.mp h
  omega

/-- The character of a code point in a spelling. -/
def charOf (spelling : Spelling) (n : Nat) : Char := if isHalf n then spelling n else Char.ofNat n

/-- The text of code points has their characters. -/
theorem toList_ofPoints (spelling : Spelling) (ns : List Nat) :
    (ofPoints spelling ns).toList = ns.map (charOf spelling) := by
  rw [ofPoints, String.toList_ofList]
  rfl

/-- The two spellings of a code point are the same exactly if it is no half. -/
theorem charOf_plain_eq_numbered_iff {n : Nat} :
    charOf .plain n = charOf .numbered n ↔ isHalf n = false := by
  unfold charOf
  cases h : isHalf n with
  | false => simp
  | true => simpa using plain_ne_numbered h

/-- At the front as many places differ as there are halves. -/
theorem differing_map (ns : List Nat) :
    differing (ns.map (charOf .plain)) (ns.map (charOf .numbered)) =
      (ns.takeWhile isHalf).length := by
  induction ns with
  | nil => rfl
  | cons n ns ih =>
    rw [List.map_cons, List.map_cons, differing]
    cases h : isHalf n with
    | false =>
      rw [if_pos (charOf_plain_eq_numbered_iff.mpr h), List.takeWhile_cons_of_neg (by simp [h])]
      rfl
    | true =>
      have hne : charOf .plain n ≠ charOf .numbered n := by
        rw [Ne, charOf_plain_eq_numbered_iff, h]
        decide
      rw [if_neg hne, ih, List.takeWhile_cons_of_pos h, List.length_cons]

/-- In a text that is spelled twice in one way nothing is found. -/
theorem halvesFrom_self (cs : List Char) (position : Nat) : halvesFrom position cs cs = none := by
  induction cs generalizing position with
  | nil => rfl
  | cons c cs ih => rw [halvesFrom, if_pos rfl, ih]

/-- A text does not differ from itself. -/
theorem halves?_self (s : String) : halves? s s = none := halvesFrom_self s.toList 0

/-- Where the first halves of some code points are, and how many of them follow each other. -/
def firstHalves? (ns : List Nat) : Option Halves :=
  let front := ns.takeWhile (!isHalf ·)
  match ns.dropWhile (!isHalf ·) with
  | [] => none
  | first :: rest => some ⟨first, front.length, (rest.takeWhile isHalf).length + 1⟩

/-- The search goes past what is no half. -/
theorem halvesFrom_map (ns : List Nat) (position : Nat) :
    halvesFrom position (ns.map (charOf .plain)) (ns.map (charOf .numbered)) =
      (firstHalves? ns).map fun h => { h with position := position + h.position } := by
  induction ns generalizing position with
  | nil => rfl
  | cons n ns ih =>
    rw [List.map_cons, List.map_cons, halvesFrom, firstHalves?]
    cases h : isHalf n with
    | false =>
      rw [if_pos (charOf_plain_eq_numbered_iff.mpr h), ih, firstHalves?,
        List.takeWhile_cons_of_pos (by simp [h]), List.dropWhile_cons_of_pos (by simp [h])]
      cases ns.dropWhile (!isHalf ·) with
      | nil => rfl
      | cons first rest => simp [Nat.add_comm, Nat.add_left_comm]
    | true =>
      have hne : charOf .plain n ≠ charOf .numbered n := by
        rw [Ne, charOf_plain_eq_numbered_iff, h]
        decide
      have hnumber : (charOf .numbered n).toNat = 0xf0000 + n := by
        rw [charOf, if_pos h, toNat_numbered h]
      rw [if_neg hne, differing_map, hnumber, List.takeWhile_cons_of_neg (by simp [h]),
        List.dropWhile_cons_of_neg (by simp [h])]
      simp

/-- What is found by two spellings of some code points is the first of their halves. -/
theorem halves?_ofPoints (ns : List Nat) :
    halves? (ofPoints .plain ns) (ofPoints .numbered ns) = firstHalves? ns := by
  rw [halves?, toList_ofPoints, toList_ofPoints, halvesFrom_map]
  simp

/-- Nothing is found exactly if there are no halves. -/
theorem firstHalves?_eq_none_iff {ns : List Nat} :
    firstHalves? ns = none ↔ ∀ n ∈ ns, isHalf n = false := by
  unfold firstHalves?
  dsimp only
  split
  next hdrop => simpa [List.dropWhile_eq_nil_iff] using hdrop
  next first rest hdrop =>
    simp only [reduceCtorEq, false_iff]
    intro hall
    have hnone : ns.dropWhile (!isHalf ·) = [] := by
      simpa [List.dropWhile_eq_nil_iff] using hall
    rw [hnone] at hdrop
    exact nomatch hdrop

/-- A spelling writes halves as characters that come after all those that mean anything here. -/
def Spelling.Foreign (f : Spelling) : Prop := ∀ n, isHalf n = true → 0xfffd ≤ (f n).toNat

/-- A string holds no character that is foreign in a spelling. -/
def Familiar (s : String) : Prop := ∀ c ∈ s.toList, c.toNat < 0xfffd

/-- The plain spelling is foreign. -/
theorem foreign_plain : Spelling.plain.Foreign := by
  intro n _
  exact Nat.le_refl 0xfffd

/-- The numbered spelling is foreign. -/
theorem foreign_numbered : Spelling.numbered.Foreign := by
  intro n hn
  rw [toNat_numbered hn]
  omega

/-- Two strings are spellings of one text. -/
def Respells (f g : Spelling) (s s' : String) : Prop :=
  ∃ ns, s = ofPoints f ns ∧ s' = ofPoints g ns

variable {f g : Spelling} {s s' t t' : String}

/-- A string holds no halves, and so is spelled in one way. -/
theorem Respells.refl (s : String) : Respells f g s s :=
  ⟨points s, (ofPoints_points f s).symm, (ofPoints_points g s).symm⟩

/-- The text of code points one after another. -/
theorem ofPoints_append (f : Spelling) (ms ns : List Nat) :
    ofPoints f (ms ++ ns) = ofPoints f ms ++ ofPoints f ns := by
  rw [← String.toList_inj, String.toList_append]
  simp only [toList_ofPoints, List.map_append]

/-- Texts are spelled one after another. -/
theorem Respells.append (h : Respells f g s s') (h' : Respells f g t t') :
    Respells f g (s ++ t) (s' ++ t') := by
  obtain ⟨ms, rfl, rfl⟩ := h
  obtain ⟨ns, rfl, rfl⟩ := h'
  exact ⟨ms ++ ns, (ofPoints_append f ms ns).symm, (ofPoints_append g ms ns).symm⟩

/-- A text is empty in both spellings or in neither. -/
theorem Respells.isEmpty_eq (h : Respells f g s s') : s.isEmpty = s'.isEmpty := by
  obtain ⟨ns, rfl, rfl⟩ := h
  have hempty : ∀ spelling, (ofPoints spelling ns).isEmpty = ns.isEmpty := by
    intro spelling
    rw [Bool.eq_iff_iff, String.isEmpty_iff, ← String.toList_eq_nil_iff, toList_ofPoints,
      List.map_eq_nil_iff, List.isEmpty_iff]
  rw [hempty, hempty]

/-- What is spelled without foreign characters holds no halves. -/
theorem isHalf_of_ofPoints_eq (hf : f.Foreign) {ns : List Nat} {key : String}
    (hkey : Familiar key) (h : ofPoints f ns = key) :
    ∀ n ∈ ns, isHalf n = false := by
  intro n hn
  have hchar : charOf f n ∈ key.toList := by
    rw [← h, toList_ofPoints]
    exact List.mem_map_of_mem hn
  have hsmall := hkey _ hchar
  cases hhalf : isHalf n with
  | false => rfl
  | true =>
    have hforeign := hf n hhalf
    rw [charOf, if_pos hhalf] at hsmall
    omega

/-- Without halves all spellings are the same. -/
theorem ofPoints_eq_of_whole {ns : List Nat} (h : ∀ n ∈ ns, isHalf n = false) (f g : Spelling) :
    ofPoints f ns = ofPoints g ns := by
  rw [← String.toList_inj, toList_ofPoints, toList_ofPoints]
  refine List.map_congr_left fun n hn => ?_
  simp [charOf, h n hn]

/-- A word without foreign characters is the text in both spellings or in neither. -/
theorem Respells.eq_iff (hf : f.Foreign) (hg : g.Foreign) (h : Respells f g s s') {key : String}
    (hkey : Familiar key) : s = key ↔ s' = key := by
  obtain ⟨ns, rfl, rfl⟩ := h
  constructor
  · intro heq
    rw [← heq]
    exact ofPoints_eq_of_whole (isHalf_of_ofPoints_eq hf hkey heq) g f
  · intro heq
    rw [← heq]
    exact ofPoints_eq_of_whole (isHalf_of_ofPoints_eq hg hkey heq) f g

/-- Whether a code point is a blank; no half is one. -/
def isBlankPoint (n : Nat) : Bool := !isHalf n && isBlank (Char.ofNat n)

/-- A blank is spelled as a blank, and a half as none. -/
theorem isBlank_charOf (hf : f.Foreign) (n : Nat) : isBlank (charOf f n) = isBlankPoint n := by
  rw [charOf, isBlankPoint]
  cases h : isHalf n with
  | false => simp
  | true =>
    have hforeign := hf n h
    simp only [if_true, Bool.not_true, Bool.false_and]
    unfold isBlank
    simp only [Bool.or_eq_false_iff, Bool.and_eq_false_iff, decide_eq_false_iff_not,
      beq_eq_false_iff_ne]
    omega

/-- Blanks are dropped from code points. -/
theorem dropBlank_map (hf : f.Foreign) (ns : List Nat) :
    dropBlank (ns.map (charOf f)) = (ns.dropWhile isBlankPoint).map (charOf f) := by
  have hblank : isBlank ∘ charOf f = isBlankPoint := funext fun n => isBlank_charOf hf n
  rw [dropBlank, List.dropWhile_map, hblank]

/-- The code points without the blanks at their two ends. -/
def stripPoints (ns : List Nat) : List Nat :=
  ((ns.dropWhile isBlankPoint).reverse.dropWhile isBlankPoint).reverse

/-- Stripping is done on code points. -/
theorem stripped_ofPoints (hf : f.Foreign) (ns : List Nat) :
    stripped (ofPoints f ns) = ofPoints f (stripPoints ns) := by
  rw [← String.toList_inj, toList_stripped, toList_ofPoints, toList_ofPoints, strip,
    dropFinalBlank, dropBlank_map hf, ← List.map_reverse, dropBlank_map hf, ← List.map_reverse]
  rfl

/-- A text is stripped in both spellings. -/
theorem Respells.stripped (hf : f.Foreign) (hg : g.Foreign) (h : Respells f g s s') :
    Respells f g (stripped s) (stripped s') := by
  obtain ⟨ns, rfl, rfl⟩ := h
  exact ⟨stripPoints ns, stripped_ofPoints hf ns, stripped_ofPoints hg ns⟩

end Bindery.Text
