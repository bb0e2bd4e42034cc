import Bindery.Signature.Nesting

/-!
# The closing parenthesis

From a positive depth, the search for the closing parenthesis finds the first place where the
depth comes down to zero. Between the opening parenthesis and that place stands a balanced text,
and no other closing parenthesis of the text has one in front of it.
-/

namespace Bindery.Signature

/-- The excess is the number of opening parentheses less the number of closing ones. -/
theorem excess_eq_count (cs : List Char) :
    excess cs = (cs.count '(' : Int) - (cs.count ')' : Int) := by
  induction cs with
  | nil => rfl
  | cons c cs ih =>
    rw [excess, ih, weight]
    by_cases ho : c = '('
    · subst ho
      simp
      omega
    · by_cases hc : c = ')'
      · subst hc
        simp
        omega
      · simp [ho, hc]

/-- A text is level when it has as many closing parentheses as opening ones. -/
theorem excess_eq_zero_iff {cs : List Char} : excess cs = 0 ↔ cs.count '(' = cs.count ')' := by
  rw [excess_eq_count]
  omega

/-- A text is balanced when it has as many closing parentheses as opening ones and no beginning of
it has more. -/
theorem balanced_iff_count {cs : List Char} :
    Balanced cs ↔
      cs.count '(' = cs.count ')' ∧ ∀ p, p <+: cs → p.count ')' ≤ p.count '(' := by
  have hnonneg : ∀ p, 0 ≤ excess p ↔ p.count ')' ≤ p.count '(' := by
    intro p
    rw [excess_eq_count]
    omega
  constructor
  · rintro ⟨hlevel, hbeginnings⟩
    exact ⟨excess_eq_zero_iff.mp hlevel, fun p hp => (hnonneg p).mp (hbeginnings p hp)⟩
  · rintro ⟨hlevel, hbeginnings⟩
    exact ⟨excess_eq_zero_iff.mpr hlevel, fun p hp => (hnonneg p).mpr (hbeginnings p hp)⟩

/-- A text without parentheses is balanced. -/
theorem balanced_of_weight_eq_zero {cs : List Char} (h : ∀ c ∈ cs, weight c = 0) :
    Balanced cs := by
  have hexcess : ∀ ds : List Char, (∀ c ∈ ds, weight c = 0) → excess ds = 0 := by
    intro ds hds
    induction ds with
    | nil => rfl
    | cons c ds ih =>
      obtain ⟨hc, hrest⟩ := List.forall_mem_cons.mp hds
      rw [excess, hc, ih hrest, Int.add_zero]
  refine ⟨hexcess cs h, fun p hp => ?_⟩
  have hlevel : excess p = 0 := hexcess p fun c hc => h c (hp.subset hc)
  exact Int.le_of_eq hlevel.symm

/-- Two balanced texts in a row are balanced. -/
theorem Balanced.append {a b : List Char} (ha : Balanced a) (hb : Balanced b) :
    Balanced (a ++ b) := by
  refine ⟨by rw [excess_append, ha.level, hb.level, Int.add_zero], fun p hp => ?_⟩
  rcases List.prefix_or_prefix_of_prefix hp (List.prefix_append a b) with hfirst | ⟨q, rfl⟩
  · exact ha.nonneg p hfirst
  · rw [excess_append, ha.level, Int.zero_add]
    exact hb.nonneg q ((List.prefix_append_right_inj a).mp hp)

/-- Balanced texts with balanced texts between them are balanced. -/
theorem balanced_intercalate {separator : List Char} (hs : Balanced separator)
    {texts : List (List Char)} (h : ∀ text ∈ texts, Balanced text) :
    Balanced (separator.intercalate texts) := by
  induction texts with
  | nil => exact balanced_of_weight_eq_zero (by simp)
  | cons text texts ih =>
    obtain ⟨htext, hrest⟩ := List.forall_mem_cons.mp h
    cases texts with
    | nil =>
      rw [List.intercalate_singleton]
      exact htext
    | cons next texts =>
      rw [List.intercalate_cons_cons]
      exact (htext.append hs).append (ih hrest)

/-- A text that is followed from a depth stays above zero up to its end and ends at depth one. -/
structure Inside (depth : Int) (cs : List Char) : Prop where
  /-- The depth at its end. -/
  level : depth + excess cs = 1
  /-- The depth after each of its beginnings. -/
  pos : ∀ p, p <+: cs → 1 ≤ depth + excess p

/-- At depth one the texts inside are the balanced ones. -/
theorem inside_one_iff {cs : List Char} : Inside 1 cs ↔ Balanced cs := by
  constructor
  · rintro ⟨hl, hp⟩
    exact ⟨by omega, fun p h => by have := hp p h; omega⟩
  · rintro ⟨hl, hp⟩
    exact ⟨by omega, fun p h => by have := hp p h; omega⟩

/-- The empty text is inside only at depth one. -/
theorem inside_nil_iff {depth : Int} : Inside depth [] ↔ depth = 1 := by
  constructor
  · rintro ⟨hl, -⟩
    simpa [excess] using hl
  · rintro rfl
    refine ⟨rfl, fun p h => ?_⟩
    rw [List.prefix_nil.mp h]
    decide

/-- One character further in, the depth is the one after it. -/
theorem inside_cons_iff {depth : Int} (hd : 0 < depth) {c : Char} {cs : List Char} :
    Inside depth (c :: cs) ↔ Inside (depth + weight c) cs := by
  constructor
  · rintro ⟨hl, hp⟩
    refine ⟨by rw [excess] at hl; omega, fun p h => ?_⟩
    have := hp (c :: p) (List.cons_prefix_cons.mpr ⟨rfl, h⟩)
    rw [excess] at this
    omega
  · rintro ⟨hl, hp⟩
    refine ⟨by rw [excess]; omega, fun p h => ?_⟩
    rcases List.prefix_cons_iff.mp h with rfl | ⟨q, rfl, hq⟩
    · rw [excess]
      omega
    · have := hp q hq
      rw [excess]
      omega

/-- The search finds the place that has a text of the right depths in front of it. -/
theorem closeFrom_eq_some_iff {depth : Int} (hd : 0 < depth) {cs : List Char} {place : Nat} :
    closeFrom depth cs = some place ↔
      ∃ inside rest, cs = inside ++ ')' :: rest ∧ inside.length = place ∧ Inside depth inside := by
  induction cs generalizing depth place with
  | nil => simp [closeFrom]
  | cons c cs ih =>
    by_cases hclose : c = ')' ∧ depth = 1
    · obtain ⟨rfl, rfl⟩ := hclose
      simp only [closeFrom, and_self, if_true, Option.some.injEq]
      constructor
      · rintro rfl
        exact ⟨[], cs, rfl, rfl, inside_nil_iff.mpr rfl⟩
      · rintro ⟨inside, rest, htext, hlength, hin⟩
        cases inside with
        | nil => exact hlength
        | cons b inside =>
          -- The depth after this parenthesis is zero, so no text goes on inside.
          obtain ⟨rfl, -⟩ : ')' = b ∧ _ := by simpa using htext
          have := hin.pos [')'] (List.cons_prefix_cons.mpr ⟨rfl, List.nil_prefix⟩)
          exact absurd this (by decide)
    · have hpos : 0 < depth + weight c := by
        unfold weight
        split
        · omega
        · split
          · have : depth ≠ 1 := fun h => hclose ⟨by assumption, h⟩
            omega
          · omega
      rw [closeFrom, if_neg hclose, Option.map_eq_some_iff]
      constructor
      · rintro ⟨n, hn, rfl⟩
        obtain ⟨inside, rest, rfl, rfl, hin⟩ := (ih hpos).mp hn
        exact ⟨c :: inside, rest, rfl, rfl, (inside_cons_iff hd).mpr hin⟩
      · rintro ⟨inside, rest, htext, rfl, hin⟩
        cases inside with
        | nil =>
          obtain ⟨rfl, -⟩ : c = ')' ∧ _ := by simpa using htext
          exact absurd ⟨rfl, inside_nil_iff.mp hin⟩ hclose
        | cons b inside =>
          obtain ⟨rfl, rfl⟩ : c = b ∧ _ := by simpa using htext
          exact ⟨inside.length,
            (ih hpos).mpr ⟨inside, rest, rfl, rfl, (inside_cons_iff hd).mp hin⟩, rfl⟩

/-- After an opening parenthesis, the search finds the end of a balanced text. -/
theorem closeFrom_one_eq_some_iff {cs : List Char} {place : Nat} :
    closeFrom 1 cs = some place ↔
      ∃ inside rest, cs = inside ++ ')' :: rest ∧ inside.length = place ∧ Balanced inside := by
  simp only [closeFrom_eq_some_iff Int.one_pos, inside_one_iff]

/-- Only one closing parenthesis of a text has a balanced text in front of it. -/
theorem balanced_front_unique {p q rest other : List Char} (hp : Balanced p) (hq : Balanced q)
    (h : p ++ ')' :: rest = q ++ ')' :: other) : p = q ∧ rest = other := by
  have hfirst := closeFrom_one_eq_some_iff.mpr ⟨p, rest, rfl, rfl, hp⟩
  have hsecond := closeFrom_one_eq_some_iff.mpr ⟨q, other, h, rfl, hq⟩
  have hlength : p.length = q.length := Option.some.inj (hfirst.symm.trans hsecond)
  obtain ⟨rfl, htail⟩ := List.append_inj h hlength
  exact ⟨rfl, (List.cons.inj htail).2⟩

end Bindery.Signature
