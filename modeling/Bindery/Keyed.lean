/-!
# Lists under keys

A list of pairs read as a table: one value under each key, in the order in which the keys first
came. Putting a value under a key that is present keeps the place and replaces the value. Tables
of types, groups of records, JSON objects and dispatch tables are all kept in this form.
-/

namespace Bindery.Keyed

variable {κ α β : Type} [DecidableEq κ]

/-- The value under a key. -/
def get? (key : κ) : List (κ × α) → Option α
  | [] => none
  | (k, a) :: rest => if k = key then some a else get? key rest

/-- The table with a value put under a key: at the key's place, or else at the end. -/
def put (key : κ) (value : α) : List (κ × α) → List (κ × α)
  | [] => [(key, value)]
  | (k, a) :: rest => if k = key then (key, value) :: rest else (k, a) :: put key value rest

/-- The table with a key, under some value if it is new. -/
def ensure (key : κ) (value : α) (table : List (κ × α)) : List (κ × α) :=
  match get? key table with
  | none => put key value table
  | some _ => table

/-- The table without a key. -/
def erase (key : κ) : List (κ × α) → List (κ × α)
  | [] => []
  | (k, a) :: rest => if k = key then erase key rest else (k, a) :: erase key rest

/-- The keys, in order. -/
def keys (table : List (κ × α)) : List κ := table.map Prod.fst

/-- The values, in order. -/
def values (table : List (κ × α)) : List α := table.map Prod.snd

/-- The table with all pairs of a second list put into it, first to last. -/
def putAll (table : List (κ × α)) (pairs : List (κ × α)) : List (κ × α) :=
  pairs.foldl (fun t p => put p.1 p.2 t) table

/-- The table of a list of pairs, in which a later pair wins over an earlier one. -/
def ofPairs (pairs : List (κ × α)) : List (κ × α) := putAll [] pairs

/-- Whether a key is present. -/
def has (key : κ) (table : List (κ × α)) : Bool := (get? key table).isSome

/-- What was put under a key is found there. -/
@[simp] theorem get?_put_self (key : κ) (value : α) (table : List (κ × α)) :
    get? key (put key value table) = some value := by
  induction table with
  | nil => simp [put, get?]
  | cons head rest ih =>
    obtain ⟨k, a⟩ := head
    by_cases h : k = key <;> simp [put, get?, h, ih]

/-- A put leaves the other keys alone. -/
theorem get?_put_of_ne {key other : κ} (h : other ≠ key) (value : α) (table : List (κ × α)) :
    get? other (put key value table) = get? other table := by
  induction table with
  | nil => simp [put, get?, Ne.symm h]
  | cons head rest ih =>
    obtain ⟨k, a⟩ := head
    by_cases hk : k = key
    · subst hk
      simp [put, get?, Ne.symm h]
    · rw [put, if_neg hk, get?, get?, ih]

/-- A key is absent exactly when nothing is found under it. -/
theorem get?_eq_none_iff {key : κ} {table : List (κ × α)} :
    get? key table = none ↔ key ∉ keys table := by
  induction table with
  | nil => simp [get?, keys]
  | cons head rest ih =>
    obtain ⟨k, a⟩ := head
    by_cases h : k = key
    · simp [get?, keys, h]
    · simp only [get?, h, if_false, ih]
      simp [keys, Ne.symm h]

/-- A put appends its key if it is new and leaves the order of keys as it was otherwise. -/
theorem keys_put (key : κ) (value : α) (table : List (κ × α)) :
    keys (put key value table) = if key ∈ keys table then keys table else keys table ++ [key] := by
  induction table with
  | nil => simp [put, keys]
  | cons head rest ih =>
    obtain ⟨k, a⟩ := head
    by_cases h : k = key
    · simp [put, keys, h]
    · have hne : key ≠ k := Ne.symm h
      simp only [keys] at ih
      by_cases hm : key ∈ rest.map Prod.fst <;> simp [put, keys, h, hne, hm, ih]

end Bindery.Keyed
