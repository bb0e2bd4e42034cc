import Bindery.Keyed
import Mathlib.Data.List.Forall2
import Mathlib.Data.List.Induction
import Mathlib.Data.List.Nodup

/-!
# Laws of tables

Tables that stand beside each other entry by entry stay so under look-ups and puts, also if they
have different keys, as long as the same entries are meant.
-/

namespace Bindery.Keyed

variable {κ κ' α β : Type} [DecidableEq κ] [DecidableEq κ']

section Beside

variable {R : κ × α → κ' × β → Prop} {key : κ} {key' : κ'}

/-- Where keys mean the same entries, a look-up finds related values or nothing on both sides. -/
theorem get?_beside (hkey : ∀ e e', R e e' → (e.1 = key ↔ e'.1 = key'))
    {table : List (κ × α)} {table' : List (κ' × β)} (h : List.Forall₂ R table table') :
    Option.Rel (fun a b => R (key, a) (key', b)) (get? key table) (get? key' table') := by
  induction h with
  | nil => exact .none
  | @cons e e' rest rest' he _ ih =>
    obtain ⟨k, a⟩ := e
    obtain ⟨k', b⟩ := e'
    have hk := hkey _ _ he
    by_cases hfound : k = key
    · obtain rfl := hk.mp hfound
      subst hfound
      simp only [get?, if_true]
      exact .some he
    · have hfound' : k' ≠ key' := fun h => hfound (hk.mpr h)
      simpa only [get?, if_neg hfound, if_neg hfound'] using ih

/-- Where keys mean the same entries, related puts keep the tables beside each other. -/
theorem put_beside (hkey : ∀ e e', R e e' → (e.1 = key ↔ e'.1 = key')) {a : α} {b : β}
    (hab : R (key, a) (key', b)) {table : List (κ × α)} {table' : List (κ' × β)}
    (h : List.Forall₂ R table table') : List.Forall₂ R (put key a table) (put key' b table') := by
  induction h with
  | nil => exact .cons hab .nil
  | @cons e e' rest rest' he hrest ih =>
    obtain ⟨k, c⟩ := e
    obtain ⟨k', d⟩ := e'
    have hk := hkey _ _ he
    by_cases hfound : k = key
    · obtain rfl := hk.mp hfound
      subst hfound
      simp only [put, if_true]
      exact .cons hab hrest
    · have hfound' : k' ≠ key' := fun h => hfound (hk.mpr h)
      simp only [put, if_neg hfound, if_neg hfound']
      exact .cons he ih

end Beside

section Members

variable {key k : κ} {value a : α} {table : List (κ × α)}

/-- What is found under a key stands in the table under it. -/
theorem mem_of_get?_eq_some (h : get? key table = some a) : (key, a) ∈ table := by
  induction table with
  | nil => simp [get?] at h
  | cons head rest ih =>
    obtain ⟨k, b⟩ := head
    by_cases hk : k = key
    · subst hk
      obtain rfl : b = a := by simpa [get?] using h
      exact List.mem_cons_self
    · rw [get?, if_neg hk] at h
      exact List.mem_cons_of_mem _ (ih h)

omit [DecidableEq κ] in
/-- A key under which something stands is one of the keys. -/
theorem mem_keys_of_mem (h : (key, a) ∈ table) : key ∈ keys table := List.mem_map_of_mem h

/-- Where keys do not repeat, what stands in the table under a key is found there. -/
theorem get?_eq_some_iff_mem (hkeys : (keys table).Nodup) :
    get? key table = some a ↔ (key, a) ∈ table := by
  refine ⟨mem_of_get?_eq_some, fun h => ?_⟩
  induction table with
  | nil => simp at h
  | cons head rest ih =>
    obtain ⟨k, b⟩ := head
    obtain ⟨hnew, hrest⟩ := List.nodup_cons.mp hkeys
    rcases List.mem_cons.mp h with heq | hmem
    · obtain ⟨rfl, rfl⟩ := Prod.mk.inj heq
      exact if_pos rfl
    · have hne : k ≠ key := fun hk => hnew (hk ▸ mem_keys_of_mem hmem)
      rw [get?, if_neg hne]
      exact ih hrest hmem

/-- The order in which a table without repeated keys is listed makes no difference to what is found.
-/
theorem get?_perm (hkeys : (keys table).Nodup) {other : List (κ × α)} (h : other.Perm table) :
    get? key other = get? key table := by
  have hother : (keys other).Nodup := (h.map Prod.fst).nodup_iff.mpr hkeys
  refine Option.ext fun a => ?_
  rw [get?_eq_some_iff_mem hkeys, get?_eq_some_iff_mem hother, h.mem_iff]

/-- After a put the table holds what was put, and what it held under other keys. -/
theorem mem_put_of_nodup (hkeys : (keys table).Nodup) :
    (k, a) ∈ put key value table ↔ (k = key ∧ a = value) ∨ (k ≠ key ∧ (k, a) ∈ table) := by
  induction table with
  | nil => simp [put]
  | cons head rest ih =>
    obtain ⟨k', b⟩ := head
    obtain ⟨hnew, hrest⟩ := List.nodup_cons.mp hkeys
    by_cases hk' : k' = key
    · subst hk'
      have hother : (k, a) ∈ rest → k ≠ k' := fun h hk => hnew (hk ▸ mem_keys_of_mem h)
      rw [put, if_pos rfl]
      simp only [List.mem_cons, Prod.mk.injEq]
      tauto
    · rw [put, if_neg hk']
      have hfirst : k = k' → k ≠ key := fun h => h ▸ hk'
      simp only [List.mem_cons, Prod.mk.injEq, ih hrest]
      tauto

/-- A put keeps keys from repeating. -/
theorem nodup_keys_put (hkeys : (keys table).Nodup) : (keys (put key value table)).Nodup := by
  rw [keys_put]
  split
  · exact hkeys
  next hnew =>
    have hother : ∀ k ∈ keys table, k ≠ key := fun k hk h => hnew (h ▸ hk)
    simpa [List.nodup_append, hkeys] using hother

/-- Putting pairs keeps keys from repeating. -/
theorem nodup_keys_putAll (hkeys : (keys table).Nodup) (pairs : List (κ × α)) :
    (keys (putAll table pairs)).Nodup := by
  induction pairs generalizing table with
  | nil => exact hkeys
  | cons p pairs ih => exact ih (nodup_keys_put hkeys)

/-- Putting two lists of pairs in turn is putting them as one. -/
theorem putAll_append (table first second : List (κ × α)) :
    putAll table (first ++ second) = putAll (putAll table first) second :=
  List.foldl_append

/-- Pairs with other keys leave a key alone. -/
theorem get?_putAll_of_not_mem {pairs : List (κ × α)} (h : key ∉ keys pairs)
    (table : List (κ × α)) : get? key (putAll table pairs) = get? key table := by
  induction pairs generalizing table with
  | nil => rfl
  | cons p pairs ih =>
    have hfirst : key ≠ p.1 := fun heq => h (heq ▸ List.mem_cons_self)
    have hrest : key ∉ keys pairs := fun hmem => h (List.mem_cons_of_mem _ hmem)
    have hput := ih hrest (put p.1 p.2 table)
    rw [get?_put_of_ne hfirst] at hput
    exact hput

/-- Where all pairs with a key have one value, this is what is found after they were put. -/
theorem get?_putAll_of_mem {pairs : List (κ × α)} (h : (key, a) ∈ pairs)
    (hsame : ∀ b, (key, b) ∈ pairs → b = a) (table : List (κ × α)) :
    get? key (putAll table pairs) = some a := by
  induction pairs generalizing table with
  | nil => exact absurd h List.not_mem_nil
  | cons p pairs ih =>
    have hlater : ∀ b, (key, b) ∈ pairs → b = a := fun b hb => hsame b (List.mem_cons_of_mem p hb)
    by_cases hmem : (key, a) ∈ pairs
    · exact ih hmem hlater (put p.1 p.2 table)
    · -- No later pair has the key, so the first one settles it.
      obtain rfl : (key, a) = p := (List.mem_cons.mp h).resolve_right hmem
      have hnone : key ∉ keys pairs := by
        intro hkey
        obtain ⟨⟨k, b⟩, hb, hk⟩ := List.mem_map.mp hkey
        obtain rfl : k = key := hk
        obtain rfl := hlater b hb
        exact hmem hb
      have hput := get?_putAll_of_not_mem hnone (put key a table)
      rw [get?_put_self] at hput
      exact hput

end Members

section Order

variable {key other : κ} {value a : α} {table : List (κ × α)}

/-- Of two puts under one key the second one counts. -/
theorem put_put (key : κ) (a b : α) (table : List (κ × α)) :
    put key b (put key a table) = put key b table := by
  induction table with
  | nil => simp [put]
  | cons head rest ih =>
    obtain ⟨k, c⟩ := head
    by_cases h : k = key
    · simp [put, h]
    · rw [put, if_neg h, put, if_neg h, ih, put, if_neg h]

/-- Putting what is there already changes nothing. -/
theorem put_of_get?_eq_some (h : get? key table = some a) : put key a table = table := by
  induction table with
  | nil => simp [get?] at h
  | cons head rest ih =>
    obtain ⟨k, b⟩ := head
    by_cases hk : k = key
    · subst hk
      obtain rfl : b = a := by simpa [get?] using h
      rw [put, if_pos rfl]
    · rw [get?, if_neg hk] at h
      rw [put, if_neg hk, ih h]

/-- What is put under a new key stands at the end. -/
theorem put_of_get?_eq_none (h : get? key table = none) (value : α) :
    put key value table = table ++ [(key, value)] := by
  induction table with
  | nil => rfl
  | cons head rest ih =>
    obtain ⟨k, b⟩ := head
    by_cases hk : k = key
    · simp [get?, hk] at h
    · rw [get?, if_neg hk] at h
      rw [put, if_neg hk, ih h, List.cons_append]

/-- Pairs whose keys do not repeat make a table that is their list. -/
theorem ofPairs_eq_self {pairs : List (κ × α)} (hkeys : (keys pairs).Nodup) :
    ofPairs pairs = pairs := by
  have hmore : ∀ table : List (κ × α), (keys (table ++ pairs)).Nodup →
      putAll table pairs = table ++ pairs := by
    clear hkeys
    induction pairs with
    | nil => exact fun table _ => (List.append_nil table).symm
    | cons p pairs ih =>
      obtain ⟨k, a⟩ := p
      intro table hall
      have hnew : get? k table = none := by
        rw [get?_eq_none_iff]
        intro hk
        rw [keys, List.map_append, List.nodup_append] at hall
        exact hall.2.2 k hk k List.mem_cons_self rfl
      have hput : put k a table ++ pairs = table ++ (k, a) :: pairs := by
        rw [put_of_get?_eq_none hnew, List.append_assoc, List.singleton_append]
      have hrest := ih (put k a table) (hput ▸ hall)
      exact hrest.trans hput
  exact hmore [] hkeys

/-- A selection that leaves out all that stands under a key does not see a put under it. -/
theorem filterMap_put {f : κ × α → Option β} (h : ∀ b, f (key, b) = none) (value : α)
    (table : List (κ × α)) : (put key value table).filterMap f = table.filterMap f := by
  induction table with
  | nil => simp [put, h]
  | cons head rest ih =>
    obtain ⟨k, b⟩ := head
    by_cases hk : k = key
    · subst hk
      rw [put, if_pos rfl, List.filterMap_cons_none (h value), List.filterMap_cons_none (h b)]
    · rw [put, if_neg hk, List.filterMap_cons, List.filterMap_cons, ih]

/-- A key that is found is there already. -/
theorem ensure_of_get?_eq_some (h : get? key table = some a) (value : α) :
    ensure key value table = table := by
  rw [ensure, h]

/-- A put does not need the key to be there. -/
theorem put_ensure (key : κ) (value a : α) (table : List (κ × α)) :
    put key a (ensure key value table) = put key a table := by
  unfold ensure
  split
  · exact put_put key value a table
  · rfl

/-- A key that is made sure of has its value, or else the one that it is given; the other keys are
left alone. -/
theorem get?_ensure (key other : κ) (value : α) (table : List (κ × α)) :
    get? other (ensure key value table) =
      if other = key then some ((get? key table).getD value) else get? other table := by
  unfold ensure
  by_cases hother : other = key
  · subst hother
    cases h : get? other table with
    | none => simp
    | some found => simp [h]
  · rw [if_neg hother]
    split
    · exact get?_put_of_ne hother value table
    · rfl

/-- Without a key nothing is found under it, and under the other keys what was there. -/
theorem get?_erase (key other : κ) (table : List (κ × α)) :
    get? other (erase key table) = if other = key then none else get? other table := by
  induction table with
  | nil => simp [erase, get?]
  | cons head rest ih =>
    obtain ⟨k, a⟩ := head
    rw [erase]
    by_cases hk : k = key
    · subst hk
      rw [if_pos rfl, ih, get?]
      by_cases hother : other = k
      · rw [if_pos hother, if_pos hother]
      · rw [if_neg hother, if_neg hother, if_neg (Ne.symm hother)]
    · rw [if_neg hk, get?, get?, ih]
      by_cases hother : k = other
      · subst hother
        rw [if_pos rfl, if_neg hk, if_pos rfl]
      · rw [if_neg hother, if_neg hother]

/-- What is found under a key is the value of the first entry with it. -/
theorem get?_eq_find? (key : κ) (table : List (κ × α)) :
    get? key table = (table.find? (·.1 = key)).map Prod.snd := by
  induction table with
  | nil => rfl
  | cons head rest ih =>
    obtain ⟨k, a⟩ := head
    by_cases h : k = key <;> simp [get?, h, ih]

/-- What is found in a table whose values were made from another one's is made from what is found
there. -/
theorem get?_map (f : κ → α → β) (key : κ) (table : List (κ × α)) :
    get? key (table.map fun e => (e.1, f e.1 e.2)) = (get? key table).map (f key) := by
  induction table with
  | nil => rfl
  | cons head rest ih =>
    obtain ⟨k, a⟩ := head
    rw [List.map_cons, get?, get?, ih]
    by_cases h : k = key
    · subst h
      rw [if_pos rfl, if_pos rfl, Option.map_some]
    · rw [if_neg h, if_neg h]

omit [DecidableEq κ] in
/-- A table whose values can be told from their keys is a list of its keys with those values. -/
theorem eq_map_keys {f : κ → α} (h : ∀ e ∈ table, e.2 = f e.1) :
    table = (keys table).map fun k => (k, f k) := by
  unfold keys
  rw [List.map_map]
  conv_lhs => rw [← List.map_id table]
  refine List.map_congr_left fun e he => ?_
  rw [Function.comp_apply, ← h e he, id]

/-- Where keys do not repeat, the values are what is found under the keys, in order. -/
theorem values_eq_filterMap (hkeys : (keys table).Nodup) :
    values table = (keys table).filterMap fun k => get? k table := by
  have hfound : ∀ e ∈ table, get? e.1 table = some e.2 := fun e he =>
    (get?_eq_some_iff_mem hkeys).mpr he
  unfold keys values
  rw [List.filterMap_map, ← List.filterMap_eq_map]
  exact List.filterMap_congr fun e he => (hfound e he).symm

end Order

section FirstOccurrences

variable {ι : Type} [BEq ι] [LawfulBEq ι]

/-- One more element counts among the first occurrences if it is new. -/
theorem eraseDups_concat (as : List ι) (a : ι) :
    (as ++ [a]).eraseDups = if a ∈ as then as.eraseDups else as.eraseDups ++ [a] := by
  rw [List.eraseDups_append]
  by_cases h : a ∈ as <;> simp [List.removeAll, h, List.eraseDups_cons]

/-- First occurrences do not repeat. -/
theorem nodup_eraseDups (as : List ι) : as.eraseDups.Nodup := by
  induction as using List.reverseRecOn with
  | nil => simp
  | append_singleton as a ih =>
    rw [eraseDups_concat]
    split
    · exact ih
    next hnew =>
      refine List.nodup_append.mpr ⟨ih, List.nodup_singleton a, ?_⟩
      rintro b hb _ hc rfl
      obtain rfl := List.mem_singleton.mp hc
      exact hnew (List.mem_eraseDups.mp hb)

end FirstOccurrences

end Bindery.Keyed
