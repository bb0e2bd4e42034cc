import Bindery.Proofs.Keyed
import Bindery.Proofs.Text.Blank
import Bindery.TypeMap

/-!
# Normalizing twice

A table of spellings is accepted only if each of its targets, looked up as it stands, is found
unchanged. But what is normalized loses its blanks before it is looked up. A target with blanks at
its ends therefore comes out whole the first time and may lose them the second time. These are the
only spellings that are not left alone, and it is told exactly which tables have them.
-/

namespace Bindery.TypeMap

variable {name target : String} {overrides : List (String × String)} {m : TypeMap}

/-- A derived map is the canonical table with the overrides put into it. -/
theorem table_of_derive (h : derive name overrides = .ok m) :
    m.table = Keyed.putAll canonical overrides := by
  unfold derive at h
  dsimp only at h
  split at h
  · exact nomatch h
  · obtain rfl := Except.ok.inj h
    rfl

/-- Every target of a derived map is found unchanged when it is looked up as it stands. -/
theorem spelling_target_of_derive (h : derive name overrides = .ok m) {p : String × String}
    (hp : p ∈ m.table) : m.spelling p.2 = p.2 := by
  unfold derive at h
  dsimp only at h
  split at h
  · exact nomatch h
  next hnone =>
    obtain rfl := Except.ok.inj h
    have hstable := List.find?_eq_none.mp hnone p hp
    simpa using hstable

/-- The words of a derived map do not repeat. -/
theorem nodup_keys_of_derive (h : derive name overrides = .ok m) : (Keyed.keys m.table).Nodup := by
  rw [table_of_derive h]
  exact Keyed.nodup_keys_putAll (by decide) overrides

/-- What a listed word becomes, taken as it stands, is its target. -/
theorem spelling_of_mem (h : derive name overrides = .ok m) {p : String × String}
    (hp : p ∈ m.table) : m.spelling p.1 = p.2 := by
  rw [spelling, (Keyed.get?_eq_some_iff_mem (nodup_keys_of_derive h)).mpr hp, Option.getD_some]

/-- A target stays what it is: it has no blanks at its ends, or what is left without them is a
listed word with this very target. -/
def Settled (m : TypeMap) (target : String) : Prop :=
  Text.stripped target = target ∨ m.spelling (Text.stripped target) = target

instance (m : TypeMap) (target : String) : Decidable (m.Settled target) :=
  inferInstanceAs (Decidable (_ ∨ _))

/-- A target that is found unchanged as it stands is normalized to itself exactly if it is settled.
-/
theorem normalize_eq_self_iff (h : m.spelling target = target) :
    m.normalize target = target ↔ m.Settled target := by
  refine ⟨.inr, ?_⟩
  rintro (hstripped | hlisted)
  · rw [normalize, hstripped, h]
  · exact hlisted

/-- A derived map normalizes twice as it normalizes once exactly if every word without blanks at
its ends has a settled target. A word with such blanks does not matter, since it is never found. -/
theorem normalize_normalize_iff (h : derive name overrides = .ok m) :
    (∀ written, m.normalize (m.normalize written) = m.normalize written) ↔
      ∀ p ∈ m.table, Text.stripped p.1 = p.1 → m.Settled p.2 := by
  constructor
  · intro hall p hp hword
    have honce : m.normalize p.1 = p.2 := by rw [normalize, hword, spelling_of_mem h hp]
    have htwice : m.normalize p.2 = p.2 := by simpa only [honce] using hall p.1
    exact (normalize_eq_self_iff (spelling_target_of_derive h hp)).mp htwice
  · intro hsettled written
    have hword : Text.stripped (Text.stripped written) = Text.stripped written :=
      Text.stripped_stripped written
    cases hfound : Keyed.get? (Text.stripped written) m.table with
    | none =>
      -- A word that is not listed stays as it is, and is stripped already.
      have honce : m.normalize written = Text.stripped written := by
        rw [normalize, spelling, hfound, Option.getD_none]
      rw [honce, normalize, hword, spelling, hfound, Option.getD_none]
    | some target =>
      have honce : m.normalize written = target := by
        rw [normalize, spelling, hfound, Option.getD_some]
      have hp := Keyed.mem_of_get?_eq_some hfound
      rw [honce]
      exact (normalize_eq_self_iff (spelling_target_of_derive h hp)).mpr
        (hsettled _ hp hword)

/-- A map with two overrides that have blanks: a word that becomes itself between blanks, and a word
that is never found. -/
def padded : TypeMap := ⟨"padded", canonical ++ [("Handle", " Handle "), (" Index", "int ")]⟩

/-- The map normalizes twice as it normalizes once, in spite of its blanks. -/
theorem normalize_normalize_padded :
    derive "padded" [("Handle", " Handle "), (" Index", "int ")] = .ok padded ∧
      ∀ written, padded.normalize (padded.normalize written) = padded.normalize written := by
  have hderive : derive "padded" [("Handle", " Handle "), (" Index", "int ")] = .ok padded := rfl
  exact ⟨hderive, (normalize_normalize_iff hderive).mpr (by decide)⟩

/-- A map that is derived with a target that ends in a blank drops the blank the second time. -/
theorem normalize_drops_blank_of_target :
    ∃ m, derive "blank" [("Handle", "void* ")] = .ok m ∧ m.normalize "Handle" = "void* " ∧
      m.normalize (m.normalize "Handle") = "void*" :=
  ⟨_, rfl, rfl, rfl⟩

end Bindery.TypeMap
