import Bindery.Proofs.Keyed
import Bindery.Proofs.Log
import Bindery.Surface.Basic

/-!
# Surfaces are well-formed

A surface that is built by adding records has each group once and each name of a group once, with
every record filed under its own group and name. So a record is on the surface exactly if it is
found under its group and name.
-/

namespace Bindery.Surface

variable {s : Surface} {r : Record}

/-- Groups and names do not repeat, and records are filed under their own. -/
structure WellFormed (s : Surface) : Prop where
  /-- Every group stands once. -/
  groups_nodup : s.groupNames.Nodup
  /-- Every name of a group stands once. -/
  names_nodup : ∀ g ∈ s.groups, (Keyed.keys g.2).Nodup
  /-- A record stands under its group and its name. -/
  filed : ∀ g ∈ s.groups, ∀ e ∈ g.2, e.2.key = (g.1, e.1)

/-- Nothing is filed wrongly where nothing is filed. -/
theorem WellFormed.empty : WellFormed empty where
  groups_nodup := List.nodup_nil
  names_nodup := by simp [Surface.empty]
  filed := by simp [Surface.empty]

/-- A group that is found stands on the surface; an absent one is empty. -/
theorem mem_groups_or_group_eq_nil (s : Surface) (group : String) :
    (group, s.group group) ∈ s.groups ∨ s.group group = [] := by
  unfold Surface.group
  cases h : Keyed.get? group s.groups with
  | none => exact .inr rfl
  | some records => exact .inl (Keyed.mem_of_get?_eq_some h)

/-- A group that stands on the surface is found. -/
theorem WellFormed.group_of_mem (h : s.WellFormed) {g : String × List (String × Record)}
    (hg : g ∈ s.groups) : s.group g.1 = g.2 := by
  rw [Surface.group, (Keyed.get?_eq_some_iff_mem h.groups_nodup).mpr hg, Option.getD_some]

/-- The names of every group, also of an absent one, stand once. -/
theorem WellFormed.nodup_keys_group (h : s.WellFormed) (group : String) :
    (Keyed.keys (s.group group)).Nodup := by
  rcases s.mem_groups_or_group_eq_nil group with hmem | hnil
  · exact h.names_nodup _ hmem
  · rw [hnil]
    exact List.nodup_nil

/-- What is filed in a group is filed under that group and its name. -/
theorem WellFormed.filed_group (h : s.WellFormed) {group : String} {e : String × Record}
    (he : e ∈ s.group group) : e.2.key = (group, e.1) := by
  rcases s.mem_groups_or_group_eq_nil group with hmem | hnil
  · exact h.filed _ hmem e he
  · rw [hnil] at he
    exact absurd he List.not_mem_nil

/-- A put keeps a surface well-formed. -/
theorem WellFormed.put (h : s.WellFormed) (r : Record) : (s.put r).WellFormed where
  groups_nodup := Keyed.nodup_keys_put h.groups_nodup
  names_nodup := by
    rintro ⟨group, records⟩ hg
    rcases (Keyed.mem_put_of_nodup h.groups_nodup).mp hg with ⟨rfl, rfl⟩ | ⟨-, hmem⟩
    · exact Keyed.nodup_keys_put (h.nodup_keys_group _)
    · exact h.names_nodup _ hmem
  filed := by
    rintro ⟨group, records⟩ hg ⟨name, q⟩ he
    rcases (Keyed.mem_put_of_nodup h.groups_nodup).mp hg with ⟨rfl, rfl⟩ | ⟨-, hmem⟩
    · rcases (Keyed.mem_put_of_nodup (h.nodup_keys_group _)).mp he with ⟨rfl, rfl⟩ | ⟨-, hmem⟩
      · rfl
      · exact h.filed_group hmem
    · exact h.filed _ hmem _ he

/-- Whatever becomes of duplicates, a record that is added is put. -/
theorem eq_put_of_add {duplicates : Duplicates} {s' : Surface}
    (h : (s.add duplicates r).result = .ok s') : s' = s.put r := by
  unfold Surface.add at h
  split at h
  · exact (Except.ok.inj h).symm
  · exact (Except.ok.inj h).symm
  · exact absurd h (by simp [Logged.fail])

/-- Adding records keeps a surface well-formed. -/
theorem WellFormed.addAll {duplicates : Duplicates} {records : List Record} {s' : Surface}
    (h : s.WellFormed) (hs : (s.addAll duplicates records).result = .ok s') : s'.WellFormed := by
  refine Logged.foldlM_induction (motive := fun _ s => s.WellFormed) h ?_ hs
  intro _ r b b' hb hadd
  rw [eq_put_of_add hadd]
  exact hb.put r

/-- A record stands on a surface if it stands under some name of some group. -/
theorem mem_toList_iff {s : Surface} {r : Record} :
    r ∈ s.toList ↔ ∃ group records name, (group, records) ∈ s.groups ∧ (name, r) ∈ records := by
  simp [Surface.toList, Keyed.values]

/-- A record stands on a surface if it stands in one of its sections. -/
theorem mem_toList_iff_sections {s : Surface} {r : Record} :
    r ∈ s.toList ↔ ∃ g ∈ s.sections, r ∈ g.2 := by
  simp [Surface.toList, Surface.sections]

/-- The records of a surface are those of its sections, one after another. -/
theorem toList_eq_flatMap_sections (s : Surface) : s.toList = s.sections.flatMap Prod.snd := by
  simp [toList, sections, List.flatMap_map]

/-- The group of a section is a group of the surface. -/
theorem mem_groupNames_of_mem_sections {s : Surface} {g : String × List Record}
    (hg : g ∈ s.sections) : g.1 ∈ s.groupNames := by
  obtain ⟨entry, hentry, rfl⟩ := List.mem_map.mp hg
  exact Keyed.mem_keys_of_mem hentry

/-- The sections stand under the groups of the surface, in order. -/
theorem keys_sections (s : Surface) : Keyed.keys s.sections = s.groupNames := by
  simp [Keyed.keys, sections, groupNames, Function.comp_def]

/-- The records of a section have names of their own. -/
theorem WellFormed.nodup_names (h : s.WellFormed) {g : String × List Record}
    (hg : g ∈ s.sections) : (g.2.map Record.name).Nodup := by
  obtain ⟨entry, hentry, rfl⟩ := List.mem_map.mp hg
  have hnames : (Keyed.values entry.2).map Record.name = Keyed.keys entry.2 := by
    unfold Keyed.values Keyed.keys
    rw [List.map_map]
    exact List.map_congr_left fun e he => congrArg Prod.snd (h.filed entry hentry e he)
  rw [hnames]
  exact h.names_nodup entry hentry

/-- The records of a section belong to its group. -/
theorem WellFormed.group_eq (h : s.WellFormed) {g : String × List Record} (hg : g ∈ s.sections)
    (hr : r ∈ g.2) : r.group = g.1 := by
  obtain ⟨⟨group, records⟩, hmem, rfl⟩ := List.mem_map.mp hg
  obtain ⟨⟨name, q⟩, hq, rfl⟩ := List.mem_map.mp hr
  exact congrArg Prod.fst (h.filed _ hmem _ hq)

/-- What is told of every record, section by section, is told of all records in order. -/
theorem WellFormed.flatMap_sections (h : s.WellFormed) {β : Type} (f : String → Record → β) :
    (s.sections.flatMap fun g => g.2.map (f g.1)) = s.toList.map fun r => f r.group r := by
  rw [toList_eq_flatMap_sections, List.map_flatMap]
  refine List.flatMap_congr fun g hg => List.map_congr_left fun r hr => ?_
  rw [h.group_eq hg hr]

/-- A record that is found stands on the surface. -/
theorem mem_toList_of_get? {group name : String} (h : s.get? group name = some r) :
    r ∈ s.toList := by
  have hentry := Keyed.mem_of_get?_eq_some h
  rcases s.mem_groups_or_group_eq_nil group with hmem | hnil
  · exact mem_toList_iff.mpr ⟨group, _, name, hmem, hentry⟩
  · rw [hnil] at hentry
    exact absurd hentry List.not_mem_nil

/-- A record is on a well-formed surface exactly if it is found under its group and name. -/
theorem WellFormed.get?_eq_some_iff (h : s.WellFormed) {group name : String} :
    s.get? group name = some r ↔ r ∈ s.toList ∧ r.key = (group, name) := by
  constructor
  · intro hget
    exact ⟨mem_toList_of_get? hget, h.filed_group (Keyed.mem_of_get?_eq_some hget)⟩
  · rintro ⟨hmem, hkey⟩
    obtain ⟨group', records, name', hgroup, hentry⟩ := mem_toList_iff.mp hmem
    obtain ⟨rfl, rfl⟩ := Prod.mk.inj ((h.filed _ hgroup _ hentry).symm.trans hkey)
    have hfound := (Keyed.get?_eq_some_iff_mem h.groups_nodup).mpr hgroup
    unfold Surface.get? Surface.group
    rw [hfound]
    exact (Keyed.get?_eq_some_iff_mem (h.names_nodup _ hgroup)).mpr hentry

/-- Records of one group and name on a well-formed surface are the same. -/
theorem WellFormed.eq_of_key_eq (h : s.WellFormed) {q : Record} (hr : r ∈ s.toList)
    (hq : q ∈ s.toList) (hkey : q.key = r.key) : q = r := by
  have hfound := h.get?_eq_some_iff.mpr ⟨hr, rfl⟩
  have hfound' := h.get?_eq_some_iff.mpr ⟨hq, hkey⟩
  exact Option.some.inj (hfound'.symm.trans hfound)

/-- After a put the record is found under its group and name, and the others are where they were.
-/
theorem get?_put (s : Surface) (r : Record) (group name : String) :
    (s.put r).get? group name = if r.key = (group, name) then some r else s.get? group name := by
  unfold Record.key
  by_cases hgroup : group = r.group
  · subst hgroup
    by_cases hname : name = r.name
    · subst hname
      rw [get?_put_self, if_pos rfl]
    · rw [if_neg (by simpa using Ne.symm hname)]
      unfold Surface.get? Surface.group Surface.put
      rw [Keyed.get?_put_self, Option.getD_some, Keyed.get?_put_of_ne hname]
      rfl
  · rw [if_neg (by simp [Ne.symm hgroup])]
    unfold Surface.get? Surface.group Surface.put
    rw [Keyed.get?_put_of_ne hgroup]

/-- After a put a well-formed surface holds the record, and the others that it held. -/
theorem WellFormed.mem_toList_put (h : s.WellFormed) {q : Record} :
    q ∈ (s.put r).toList ↔ q = r ∨ (r.key ≠ q.key ∧ q ∈ s.toList) := by
  have hmem : ∀ t : Surface, t.WellFormed → (q ∈ t.toList ↔ t.get? q.group q.name = some q) := by
    intro t ht
    rw [ht.get?_eq_some_iff, Record.key, and_iff_left rfl]
  have hq : q.key = (q.group, q.name) := rfl
  rw [hmem _ (h.put r), hmem s h, get?_put, hq]
  by_cases hkey : r.key = (q.group, q.name)
  · rw [if_pos hkey, Option.some.injEq]
    simp [hkey, eq_comm]
  · have hne : q ≠ r := fun heq => hkey (by rw [← heq, hq])
    rw [if_neg hkey]
    simp [hkey, hne]

end Bindery.Surface
