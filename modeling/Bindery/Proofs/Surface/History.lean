import Bindery.Proofs.Surface

/-!
# A surface is what was added to it

A surface is built by attempts to add records, some of which may be refused. At every point of such
a history the surface shows the records that were added as one list: groups in the order in which
they first came, in each group names in the order in which they first came, and at each place the
record that was added last. All observers of the surface describe this list. A record that is
refused leaves no trace.
-/

namespace Bindery.Surface

/-- A surface with the records that were added to it so far, in order. -/
structure History where
  /-- The surface. -/
  surface : Surface
  /-- The records whose addition succeeded. -/
  added : List Record

namespace History

/-- Nothing was added yet. -/
def start : History := ⟨.empty, []⟩

/-- One more attempt to add a record. -/
def next (duplicates : Duplicates) (h : History) (r : Record) : History :=
  match h.surface.attempt duplicates r with
  | (surface, ⟨_, .ok ()⟩) => ⟨surface, h.added ++ [r]⟩
  | (surface, ⟨_, .error _⟩) => ⟨surface, h.added⟩

/-- Attempts to add some records, first to last; one that is refused does not keep the later ones
from being made. -/
def of (duplicates : Duplicates) (records : List Record) : History :=
  records.foldl (next duplicates) start

end History

/-- The names under which records of a group were added, each where it first came. -/
def namesOf (added : List Record) (group : String) : List String :=
  ((added.filter (·.group = group)).map Record.name).eraseDups

/-- The record that was added last under a group and a name. -/
def latest? (added : List Record) (group name : String) : Option Record :=
  (added.filter (·.key = (group, name))).getLast?

/-- Records in the order of their groups and, in a group, of their names, each where it first came.
Of several under one name the last one stands there. -/
def arranged (added : List Record) : List (String × List Record) :=
  (added.map Record.group).eraseDups.map fun group =>
    (group, (namesOf added group).filterMap (latest? added group))

/-- All observers of a surface describe one list of groups with their records. -/
structure Shows (s : Surface) (list : List (String × List Record)) : Prop where
  /-- The names of the groups are those of the list. -/
  groupNames_eq : s.groupNames = list.map Prod.fst
  /-- The groups with their records are the list. -/
  sections_eq : s.sections = list
  /-- The records, group by group, are those of the list. -/
  toList_eq : s.toList = list.flatMap Prod.snd
  /-- The size counts the records of the list. -/
  size_eq : s.size = (list.flatMap Prod.snd).length
  /-- The records of one group are those that the list has beside it; an absent group has none. -/
  recordsOf_eq : ∀ group,
    s.recordsOf group = ((list.find? (·.1 = group)).map Prod.snd).getD []
  /-- What is found under a group and a name is the record of the list with this key. -/
  get?_eq : ∀ group name,
    s.get? group name = (list.flatMap Prod.snd).find? (·.key = (group, name))
  /-- A group and a name are there if they are the key of a record of the list. -/
  contains_iff : ∀ group name,
    s.contains group name = true ↔ (group, name) ∈ (list.flatMap Prod.snd).map Record.key

variable {s : Surface} {r : Record} {duplicates : Duplicates}

/-- The observers of a well-formed surface describe its sections. -/
theorem WellFormed.shows_sections (h : s.WellFormed) : s.Shows s.sections := by
  have hlist : s.sections.flatMap Prod.snd = s.toList := s.toList_eq_flatMap_sections.symm
  have hget : ∀ group name,
      s.get? group name = s.toList.find? (·.key = (group, name)) := by
    intro group name
    cases hfound : s.get? group name with
    | none =>
      rw [eq_comm, List.find?_eq_none]
      intro q hq hkey
      have hsome := h.get?_eq_some_iff.mpr ⟨hq, of_decide_eq_true hkey⟩
      exact Option.some_ne_none q (hsome.symm.trans hfound)
    | some q =>
      obtain ⟨hq, hkey⟩ := h.get?_eq_some_iff.mp hfound
      cases hother : s.toList.find? (·.key = (group, name)) with
      | none => exact absurd (decide_eq_true hkey) (List.find?_eq_none.mp hother q hq)
      | some q' =>
        have hmem := List.mem_of_find?_eq_some hother
        have hkey' := List.find?_some hother
        rw [decide_eq_true_iff] at hkey'
        rw [h.eq_of_key_eq hq hmem (hkey'.trans hkey.symm)]
  refine ⟨?_, rfl, hlist.symm, ?_, fun group => ?_, ?_, ?_⟩
  · simp [groupNames, sections, Keyed.keys]
  · rw [hlist, size_eq_length_toList]
  · unfold recordsOf Surface.group sections
    rw [List.find?_map, Keyed.get?_eq_find?]
    simp only [Option.map_map, Function.comp_def]
    cases s.groups.find? (·.1 = group) <;> rfl
  · rw [hlist]
    exact hget
  · intro group name
    have hhas : s.contains group name = (s.get? group name).isSome := rfl
    rw [hlist, hhas, hget, List.find?_isSome]
    simp

/-- The keys of the records of a well-formed surface do not repeat. -/
theorem WellFormed.nodup_keys_toList (h : s.WellFormed) : (s.toList.map Record.key).Nodup := by
  have hkeys : s.toList.map Record.key =
      s.groups.flatMap fun g => (Keyed.keys g.2).map fun name => (g.1, name) := by
    unfold toList Keyed.values Keyed.keys
    rw [List.map_flatMap]
    refine List.flatMap_congr fun g hg => ?_
    rw [List.map_map, List.map_map]
    exact List.map_congr_left fun e he => h.filed g hg e he
  rw [hkeys, List.nodup_flatMap]
  constructor
  · intro g hg
    exact (h.names_nodup g hg).map fun a b hab => (Prod.mk.inj hab).2
  · refine (List.pairwise_map.mp h.groups_nodup).imp fun {g g'} hne => ?_
    refine List.disjoint_left.mpr fun k hk hk' => ?_
    obtain ⟨name, -, rfl⟩ := List.mem_map.mp hk
    obtain ⟨name', -, heq⟩ := List.mem_map.mp hk'
    exact hne (Prod.mk.inj heq).1.symm

/-- A group that is made sure of holds what it held. -/
theorem group_withGroup (s : Surface) (group other : String) :
    (s.withGroup group).group other = s.group other := by
  unfold withGroup Surface.group
  rw [Keyed.get?_ensure]
  split
  next heq =>
    subst heq
    rfl
  · rfl

/-- Making sure of a group changes nothing that is found. -/
theorem get?_withGroup (s : Surface) (group other name : String) :
    (s.withGroup group).get? other name = s.get? other name := by
  rw [Surface.get?, group_withGroup, Surface.get?]

/-- A put does not need its group to be there. -/
theorem put_withGroup (s : Surface) (r : Record) : (s.withGroup r.group).put r = s.put r := by
  unfold put
  rw [group_withGroup, withGroup, Keyed.put_ensure]

/-- The group of a record that is found is there already. -/
theorem withGroup_of_get?_eq_some {group name : String} (h : s.get? group name = some r) :
    s.withGroup group = s := by
  unfold Surface.get? Surface.group at h
  cases hgroup : Keyed.get? group s.groups with
  | none => simp [hgroup, Keyed.get?] at h
  | some records => rw [withGroup, Keyed.ensure_of_get?_eq_some hgroup]

/-- A record under a new key is put, without a report. -/
theorem attempt_of_get?_eq_none (h : s.get? r.group r.name = none) :
    s.attempt duplicates r = (s.put r, ⟨[], .ok ()⟩) := by
  unfold attempt
  dsimp only
  rw [get?_withGroup, put_withGroup, h]
  rfl

/-- Where duplicates replace, a record under a key that is there is put, with a warning. -/
theorem attempt_replace_of_get?_eq_some {earlier : Record}
    (h : s.get? r.group r.name = some earlier) :
    s.attempt .replace r = (s.put r, ⟨[Clash.warning ⟨r, earlier⟩], .ok ()⟩) := by
  unfold attempt
  dsimp only
  rw [get?_withGroup, put_withGroup, h]

/-- Where duplicates are refused, a record under a key that is there leaves the surface as it was.
-/
theorem attempt_refuse_of_get?_eq_some {earlier : Record}
    (h : s.get? r.group r.name = some earlier) :
    s.attempt .refuse r = (s, .fail ⟨r, earlier⟩) := by
  unfold attempt
  dsimp only
  rw [get?_withGroup, h, withGroup_of_get?_eq_some h]

/-- An attempt reports what adding reports, and leaves the surface that adding gives, or else the
one that was there. -/
theorem attempt_eq_add (duplicates : Duplicates) (s : Surface) (r : Record) :
    s.attempt duplicates r = ((s.add duplicates r).result.toOption.getD s,
      ⟨(s.add duplicates r).log, (s.add duplicates r).result.map fun _ => ()⟩) := by
  unfold Surface.add
  cases h : s.get? r.group r.name with
  | none => exact attempt_of_get?_eq_none h
  | some earlier =>
    cases duplicates with
    | replace => exact attempt_replace_of_get?_eq_some h
    | refuse => exact attempt_refuse_of_get?_eq_some h

/-- An attempt keeps a surface well-formed, also if the record is refused. -/
theorem WellFormed.attempt (h : s.WellFormed) (duplicates : Duplicates) (r : Record) :
    (s.attempt duplicates r).1.WellFormed := by
  rw [attempt_eq_add]
  cases hadd : (s.add duplicates r).result with
  | error clash => exact h
  | ok s' =>
    rw [eq_put_of_add hadd]
    exact h.put r

/-- A surface holds what was added to it. -/
structure Follows (s : Surface) (added : List Record) : Prop where
  /-- The surface is well-formed. -/
  wellFormed : s.WellFormed
  /-- The groups stand where they first came. -/
  groupNames_eq : s.groupNames = (added.map Record.group).eraseDups
  /-- The names of each group stand where they first came. -/
  names_eq : ∀ group, Keyed.keys (s.group group) = namesOf added group
  /-- Under a group and a name the last record is found. -/
  get?_eq : ∀ group name, s.get? group name = latest? added group name

/-- The group of a record that is put has this record, and the others are left alone. -/
theorem group_put (s : Surface) (r : Record) (group : String) :
    (s.put r).group group =
      if group = r.group then Keyed.put r.name r (s.group r.group) else s.group group := by
  unfold put
  by_cases h : group = r.group
  · subst h
    rw [if_pos rfl, Surface.group, Keyed.get?_put_self, Option.getD_some]
  · rw [if_neg h, Surface.group, Keyed.get?_put_of_ne h, Surface.group]

/-- Nothing was added to the surface without functions. -/
theorem Follows.empty : Follows empty [] :=
  ⟨.empty, rfl, fun _ => rfl, fun _ _ => rfl⟩

variable {added : List Record}

/-- A record that is put was added last. -/
theorem Follows.put (h : s.Follows added) (r : Record) : (s.put r).Follows (added ++ [r]) := by
  refine ⟨h.wellFormed.put r, ?_, fun group => ?_, fun group name => ?_⟩
  · have hkeys : (s.put r).groupNames =
        if r.group ∈ s.groupNames then s.groupNames else s.groupNames ++ [r.group] :=
      Keyed.keys_put _ _ _
    rw [hkeys, h.groupNames_eq, List.map_append, List.map_singleton, Keyed.eraseDups_concat]
    simp only [List.mem_eraseDups]
  · have hnames := h.names_eq group
    unfold namesOf at hnames ⊢
    rw [group_put, List.filter_append]
    by_cases hgroup : group = r.group
    · subst hgroup
      rw [if_pos rfl, Keyed.keys_put, hnames]
      simp only [List.filter_singleton, decide_true, cond_true, List.map_append,
        List.map_singleton, Keyed.eraseDups_concat, List.mem_eraseDups]
    · rw [if_neg hgroup, hnames]
      simp [Ne.symm hgroup]
  · have hget := h.get?_eq group name
    unfold latest? at hget ⊢
    rw [get?_put, hget, List.filter_append]
    by_cases hkey : r.key = (group, name) <;> simp [hkey]

/-- A surface that holds what was added shows it as one list. -/
theorem Follows.sections_eq (h : s.Follows added) : s.sections = arranged added := by
  have hgroups : s.groups = s.groupNames.map fun group => (group, s.group group) :=
    Keyed.eq_map_keys fun g hg => (h.wellFormed.group_of_mem hg).symm
  have hvalues : ∀ group, Keyed.values (s.group group) =
      (namesOf added group).filterMap (latest? added group) := by
    intro group
    rw [Keyed.values_eq_filterMap (h.wellFormed.nodup_keys_group group), h.names_eq]
    exact List.filterMap_congr fun name _ => h.get?_eq group name
  rw [sections, hgroups, h.groupNames_eq, List.map_map, arranged]
  exact List.map_congr_left fun group _ => congrArg (Prod.mk group) (hvalues group)

/-- A key is there exactly if something was added last under it. -/
theorem isSome_latest?_iff {group name : String} :
    (latest? added group name).isSome = true ↔ (group, name) ∈ added.map Record.key := by
  rw [latest?, Option.isSome_iff_ne_none, ne_eq, List.getLast?_eq_none_iff, List.filter_eq_nil_iff]
  simp

/-- The size of a surface is the number of different keys that were added. -/
theorem Follows.size_eq (h : s.Follows added) :
    s.size = (added.map Record.key).eraseDups.length := by
  have hmem : ∀ k, k ∈ s.toList.map Record.key ↔ k ∈ (added.map Record.key).eraseDups := by
    rintro ⟨group, name⟩
    have hadded : (latest? added group name).isSome = true ↔
        (group, name) ∈ added.map Record.key := isSome_latest?_iff
    rw [List.mem_eraseDups, ← hadded, ← h.get?_eq, List.mem_map, Option.isSome_iff_exists]
    exact exists_congr fun q => h.wellFormed.get?_eq_some_iff.symm
  have hperm : (s.toList.map Record.key).Perm (added.map Record.key).eraseDups :=
    (List.perm_ext_iff_of_nodup h.wellFormed.nodup_keys_toList (Keyed.nodup_eraseDups _)).mpr hmem
  rw [size_eq_length_toList, ← hperm.length_eq, List.length_map]

/-- No group of a surface is empty. -/
theorem Follows.ne_nil (h : s.Follows added) {g : String × List (String × Record)}
    (hg : g ∈ s.groups) : g.2 ≠ [] := by
  intro hnil
  have hfound : s.group g.1 = [] := (h.wellFormed.group_of_mem hg).trans hnil
  have hgroup : g.1 ∈ (added.map Record.group).eraseDups := by
    rw [← h.groupNames_eq]
    exact Keyed.mem_keys_of_mem hg
  obtain ⟨q, hq, hqg⟩ := List.mem_map.mp (List.mem_eraseDups.mp hgroup)
  have hname : q.name ∈ namesOf added g.1 := by
    unfold namesOf
    rw [List.mem_eraseDups]
    exact List.mem_map_of_mem (List.mem_filter.mpr ⟨hq, decide_eq_true hqg⟩)
  rw [← h.names_eq, hfound] at hname
  exact absurd hname List.not_mem_nil

/-- What an attempt does and reports, by what was added before it. -/
structure Answers (duplicates : Duplicates) (h : History) (r : Record) : Prop where
  /-- A record under a new key is added, without a report. -/
  of_new : r.key ∉ h.added.map Record.key →
    h.next duplicates r = ⟨h.surface.put r, h.added ++ [r]⟩ ∧
    (h.surface.attempt duplicates r).2 = ⟨[], .ok ()⟩
  /-- Where duplicates replace, a record under a key that is there is added, and there is one
  warning that names its place and that of the record which it replaces. -/
  of_replaced : duplicates = .replace → r.key ∈ h.added.map Record.key →
    h.next duplicates r = ⟨h.surface.put r, h.added ++ [r]⟩ ∧
    ∃ earlier, latest? h.added r.group r.name = some earlier ∧
      (h.surface.attempt duplicates r).2 = ⟨[⟨.warning, .surface,
        "duplicate symbol " ++ r.symbol ++ ": " ++ r.place ++ " replaces " ++ earlier.place⟩],
        .ok ()⟩
  /-- Where duplicates are refused, a record under a key that is there fails without a report, and
  surface and history are as they were. -/
  of_refused : duplicates = .refuse → r.key ∈ h.added.map Record.key →
    h.next duplicates r = h ∧
    ∃ earlier, latest? h.added r.group r.name = some earlier ∧
      h.surface.attempt duplicates r = (h.surface, ⟨[], .error ⟨r, earlier⟩⟩)

/-- An attempt on a surface that holds what was added answers by what was added. -/
theorem History.answers {h : History} (hs : h.surface.Follows h.added) (duplicates : Duplicates)
    (r : Record) : Answers duplicates h r := by
  have hfound := hs.get?_eq r.group r.name
  have hlatest : ∀ {q : Record}, q.key ∈ h.added.map Record.key →
      ∃ earlier, latest? h.added q.group q.name = some earlier := fun hmem =>
    Option.isSome_iff_exists.mp (isSome_latest?_iff.mpr hmem)
  refine ⟨fun hnew => ?_, ?_, ?_⟩
  · have hnone : h.surface.get? r.group r.name = none := by
      rw [hfound, ← Option.not_isSome_iff_eq_none, isSome_latest?_iff]
      exact hnew
    rw [next, attempt_of_get?_eq_none hnone]
    exact ⟨rfl, rfl⟩
  · rintro rfl hmem
    obtain ⟨earlier, hearlier⟩ := hlatest hmem
    have hattempt := attempt_replace_of_get?_eq_some (hfound.trans hearlier)
    rw [next, hattempt]
    exact ⟨rfl, earlier, hearlier, rfl⟩
  · rintro rfl hmem
    obtain ⟨earlier, hearlier⟩ := hlatest hmem
    have hattempt := attempt_refuse_of_get?_eq_some (hfound.trans hearlier)
    rw [next, hattempt]
    exact ⟨rfl, earlier, hearlier, rfl⟩

/-- One more attempt leaves a surface that holds what was added. -/
theorem History.follows_next {h : History} (hs : h.surface.Follows h.added)
    (duplicates : Duplicates) (r : Record) :
    (h.next duplicates r).surface.Follows (h.next duplicates r).added := by
  have hanswers := answers hs duplicates r
  by_cases hmem : r.key ∈ h.added.map Record.key
  · cases duplicates with
    | replace =>
      rw [(hanswers.of_replaced rfl hmem).1]
      exact hs.put r
    | refuse =>
      rw [(hanswers.of_refused rfl hmem).1]
      exact hs
  · rw [(hanswers.of_new hmem).1]
    exact hs.put r

/-- Attempts leave a surface that holds what was added. -/
theorem History.follows_of (duplicates : Duplicates) (records : List Record) :
    (of duplicates records).surface.Follows (of duplicates records).added := by
  induction records using List.reverseRecOn with
  | nil => exact .empty
  | append_singleton records r ih =>
    rw [of, List.foldl_append]
    exact follows_next ih duplicates r

/-- After any attempts to add records all observers of the surface describe one list: what was
added, arranged by first place and last value. Records are filed under their own group and name, no
group is empty, and the size is the number of different keys. The next attempt succeeds, warns or
fails by whether its key was added before, and leaves the surface as it was if it fails. -/
theorem shows_arranged_history (duplicates : Duplicates) (records : List Record) :
    (History.of duplicates records).surface.Shows
      (arranged (History.of duplicates records).added) ∧
    (∀ g ∈ (History.of duplicates records).surface.groups,
      g.2 ≠ [] ∧ ∀ e ∈ g.2, e.2.group = g.1 ∧ e.2.name = e.1) ∧
    (History.of duplicates records).surface.size =
      ((History.of duplicates records).added.map Record.key).eraseDups.length ∧
    ∀ r, Answers duplicates (History.of duplicates records) r := by
  have hfollows := History.follows_of duplicates records
  have hshows := hfollows.wellFormed.shows_sections
  rw [hfollows.sections_eq] at hshows
  refine ⟨hshows, fun g hg => ⟨hfollows.ne_nil hg, fun e he => ?_⟩, hfollows.size_eq,
    History.answers hfollows duplicates⟩
  exact Prod.mk.inj (hfollows.wellFormed.filed g hg e he)

end Bindery.Surface
