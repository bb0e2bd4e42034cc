import Bindery.Log
import Mathlib.Data.List.Forall2

/-!
# Runs that agree

Two logged results agree when they have the same log and end in the same way, in failures that are
alike or in values that are related. Agreement is kept by sequences of activities, and so by a
walk along a list. A walk that fails has one element to blame.
-/

namespace Bindery.Logged

variable {ε ε' ζ ζ' α α' β β' γ : Type}

/-- Two outcomes are both failures or both successes, and related. -/
inductive Outcome (E : ε → ε' → Prop) (R : α → β → Prop) : Except ε α → Except ε' β → Prop
  | error {e : ε} {e' : ε'} (h : E e e') : Outcome E R (.error e) (.error e')
  | ok {a : α} {b : β} (h : R a b) : Outcome E R (.ok a) (.ok b)

/-- Two runs have the same log and related outcomes. -/
structure Agree (E : ε → ε' → Prop) (R : α → β → Prop) (x : Logged ε α) (y : Logged ε' β) :
    Prop where
  /-- The entries are the same. -/
  log_eq : x.log = y.log
  /-- The outcomes are related. -/
  outcome : Outcome E R x.result y.result

variable {E : ε → ε' → Prop} {F : ζ → ζ' → Prop} {R : α → β → Prop} {S : α' → β' → Prop}

/-- Computations in sequence have related outcomes if each one does. -/
theorem Outcome.bind {x : Except ε α} {y : Except ε' β} {f : α → Except ε α'}
    {g : β → Except ε' β'} (h : Outcome E R x y) (hfg : ∀ a b, R a b → Outcome E S (f a) (g b)) :
    Outcome E S (x >>= f) (y >>= g) := by
  cases h with
  | error he => exact .error he
  | ok hr => exact hfg _ _ hr

/-- A walk along two lists has related outcomes if each step does. -/
theorem Outcome.mapM {P : γ → α' → Prop} {f : γ → Except ε α} {g : α' → Except ε' β}
    {cs : List γ} {as : List α'} (h : List.Forall₂ P cs as)
    (hfg : ∀ c a, P c a → Outcome E R (f c) (g a)) :
    Outcome E (List.Forall₂ R) (cs.mapM f) (as.mapM g) := by
  induction h with
  | nil => exact .ok .nil
  | cons hfirst _ ih =>
    rw [List.mapM_cons, List.mapM_cons]
    refine (hfg _ _ hfirst).bind fun a b hab => ?_
    exact ih.bind fun as bs hbs => .ok (.cons hab hbs)

/-- Failures may be stated in other terms on both sides. -/
theorem Outcome.mapError {x : Except ε α} {y : Except ε' β} {f : ε → ζ} {g : ε' → ζ'}
    (h : Outcome E R x y) (hfg : ∀ e e', E e e' → F (f e) (g e')) :
    Outcome F R (x.mapError f) (y.mapError g) := by
  cases h with
  | error he => exact .error (hfg _ _ he)
  | ok hr => exact .ok hr

/-- A failure ends a sequence of activities. -/
theorem bind_of_error {x : Logged ε α} {e : ε} (h : x.result = .error e)
    (f : α → Logged ε γ) : x >>= f = ⟨x.log, .error e⟩ := by
  obtain ⟨log, result⟩ := x
  obtain rfl : result = .error e := h
  rfl

/-- After a success the next activity goes on with its value. -/
theorem bind_of_ok {x : Logged ε α} {a : α} (h : x.result = .ok a) (f : α → Logged ε γ) :
    x >>= f = ⟨x.log ++ (f a).log, (f a).result⟩ := by
  obtain ⟨log, result⟩ := x
  obtain rfl : result = .ok a := h
  rfl

/-- What is left when failures are forgotten was a success. -/
theorem eq_ok_of_toOption {x : Except ε α} {a : α} (h : x.toOption = some a) : x = .ok a := by
  cases x with
  | error e => exact nomatch h
  | ok b => exact congrArg Except.ok (Option.some.inj h)

/-- A failure is stated in the wider terms. -/
theorem result_mapError_of_error {x : Logged ε α} {e : ε} (h : x.result = .error e)
    (f : ε → ζ) : (x.mapError f).result = .error (f e) := by
  rw [mapError, h, Except.mapError]

/-- A success is the same in wider terms. -/
theorem result_mapError_eq_ok_iff {x : Logged ε α} {a : α} {f : ε → ζ} :
    (x.mapError f).result = .ok a ↔ x.result = .ok a := by
  rw [mapError]
  cases x.result <;> simp [Except.mapError]

/-- A sequence of activities succeeds if each one does. -/
theorem result_bind_eq_ok_iff {x : Logged ε α} {f : α → Logged ε γ} {c : γ} :
    (x >>= f).result = .ok c ↔ ∃ a, x.result = .ok a ∧ (f a).result = .ok c := by
  cases hx : x.result with
  | error e =>
    rw [bind_of_error hx]
    simp
  | ok a =>
    rw [bind_of_ok hx]
    simp

/-- Activities in sequence agree if each one does. -/
theorem Agree.bind {x : Logged ε α} {y : Logged ε' β} {f : α → Logged ε α'}
    {g : β → Logged ε' β'} (h : Agree E R x y) (hfg : ∀ a b, R a b → Agree E S (f a) (g b)) :
    Agree E S (x >>= f) (y >>= g) := by
  obtain ⟨log, result⟩ := x
  obtain ⟨log', result'⟩ := y
  obtain ⟨rfl, ho⟩ := h
  dsimp only at ho
  cases ho with
  | error he => exact ⟨rfl, .error he⟩
  | ok hr =>
    have hnext := hfg _ _ hr
    exact ⟨congrArg (log ++ ·) hnext.log_eq, hnext.outcome⟩

/-- Failures may be stated in wider terms on both sides. -/
theorem Agree.mapError {x : Logged ε α} {y : Logged ε' β} {f : ε → ζ} {g : ε' → ζ'}
    (h : Agree E R x y) (hfg : ∀ e e', E e e' → F (f e) (g e')) :
    Agree F R (x.mapError f) (y.mapError g) := by
  obtain ⟨log, result⟩ := x
  obtain ⟨log', result'⟩ := y
  obtain ⟨rfl, ho⟩ := h
  dsimp only at ho
  cases ho with
  | error he => exact ⟨rfl, .error (hfg _ _ he)⟩
  | ok hr => exact ⟨rfl, .ok hr⟩

/-- Two walks along one list agree if each step does. -/
theorem Agree.foldlM {step : α → γ → Logged ε α} {step' : β → γ → Logged ε' β}
    (hstep : ∀ a b c, R a b → Agree E R (step a c) (step' b c)) (cs : List γ) {a : α} {b : β}
    (h : R a b) : Agree E R (cs.foldlM step a) (cs.foldlM step' b) := by
  induction cs generalizing a b with
  | nil => exact ⟨rfl, .ok h⟩
  | cons c cs ih =>
    rw [List.foldlM_cons, List.foldlM_cons]
    exact (hstep a b c h).bind fun a' b' h' => ih h'

/-- What holds at the start of a walk and is kept by each step holds at the end of a walk that
succeeds, of all elements. -/
theorem foldlM_induction {motive : List γ → α → Prop} {step : α → γ → Logged ε α} {a : α}
    (hnil : motive [] a)
    (hstep : ∀ done c b b', motive done b → (step b c).result = .ok b' → motive (done ++ [c]) b')
    {cs : List γ} {b : α} (h : (cs.foldlM step a).result = .ok b) : motive cs b := by
  suffices hmore : ∀ done, motive done a → motive (done ++ cs) b from hmore [] hnil
  clear hnil
  induction cs generalizing a with
  | nil =>
    intro done hdone
    obtain rfl : a = b := Except.ok.inj h
    rwa [List.append_nil]
  | cons c cs ih =>
    intro done hdone
    rw [List.foldlM_cons] at h
    cases hc : (step a c).result with
    | error e =>
      simp [bind_of_error hc] at h
    | ok next =>
      rw [bind_of_ok hc] at h
      have hrest := ih h (done ++ [c]) (hstep done c a next hdone hc)
      rwa [List.append_assoc, List.singleton_append] at hrest

/-- A walk that fails does so at one element, after a walk along those before it that succeeds;
what was logged up to there is kept. -/
theorem foldlM_of_error {step : α → γ → Logged ε α} {cs : List γ} {a : α} {e : ε}
    (h : (cs.foldlM step a).result = .error e) :
    ∃ before c after b, cs = before ++ c :: after ∧ (before.foldlM step a).result = .ok b ∧
      (step b c).result = .error e ∧
      (cs.foldlM step a).log = (before.foldlM step a).log ++ (step b c).log := by
  induction cs generalizing a with
  | nil => exact absurd h (by simp [pure_def])
  | cons c cs ih =>
    rw [List.foldlM_cons] at h ⊢
    cases hc : (step a c).result with
    | error e' =>
      rw [bind_of_error hc] at h ⊢
      obtain rfl : e' = e := Except.error.inj h
      exact ⟨[], c, cs, a, rfl, rfl, hc, rfl⟩
    | ok next =>
      rw [bind_of_ok hc] at h ⊢
      obtain ⟨before, d, after, b, rfl, hbefore, hd, hlog⟩ := ih h
      refine ⟨c :: before, d, after, b, rfl, ?_, hd, ?_⟩
      · rw [List.foldlM_cons, bind_of_ok hc]
        exact hbefore
      · rw [List.foldlM_cons, bind_of_ok hc, hlog, List.append_assoc]

end Bindery.Logged
