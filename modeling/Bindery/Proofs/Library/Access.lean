import Bindery.Library.Access
import Bindery.Proofs.Library.Session
import Bindery.Proofs.Surface.History

/-!
# Attributes and items

Published tables have each group once, and each name once in the table of its group, whatever
happened before they were published. So the item of a group is its table, and the item of a name is
its slot. The attribute is the same, unless the client or the table has a member of that name. The
member comes first, and then only the item leads to the function.
-/

namespace Bindery.Library

/-- Groups and names do not repeat in tables. -/
structure Distinct (tables : List (String × Table)) : Prop where
  /-- Every group stands once. -/
  groups_nodup : (Keyed.keys tables).Nodup
  /-- Every name of a table stands once. -/
  names_nodup : ∀ entry ∈ tables, entry.2.names.Nodup

/-- Tables that fit a well-formed surface have its groups and names, so these do not repeat. -/
theorem distinct_of_fits {l : Opened} {surface : Surface} {tables : List (String × Table)}
    (h : surface.WellFormed) (hfits : List.Forall₂ (Client.Fits l) surface.sections tables) :
    Distinct tables := by
  have hlayout := Session.layout_of_fits hfits
  constructor
  · have hgroups : Keyed.keys tables = surface.groupNames := by
      rw [← surface.keys_sections]
      simpa only [Keyed.keys, List.map_map, Function.comp_def] using
        congrArg (List.map Prod.fst) hlayout
    rw [hgroups]
    exact h.groups_nodup
  · intro entry hentry
    have hlaid := List.mem_map_of_mem (f := fun e => (e.1, e.2.group, e.2.names)) hentry
    rw [hlayout] at hlaid
    obtain ⟨g, hg, heq⟩ := List.mem_map.mp hlaid
    have hnames : g.2.map Record.name = entry.2.names := congrArg (fun laid => laid.2.2) heq
    rw [← hnames]
    exact h.nodup_names hg

namespace Session

variable {s : Session}

/-- A session whose surface and tables have nothing twice. -/
structure Tidy (s : Session) : Prop where
  /-- The functions are there. -/
  sound : s.Sound
  /-- Groups and names do not repeat on the surface. -/
  surface : s.client.surface.WellFormed
  /-- Nor do they in published tables. -/
  tables : ∀ tables, s.client.tables = some tables → Distinct tables

/-- Nothing that happens brings anything twice. -/
theorem Tidy.next (h : s.Tidy) (a : Act) : (s.next a).Tidy := by
  have hsound := h.sound.next a
  cases a with
  | fill =>
    rcases call_cases h.sound with ⟨-, hclient, -⟩ | ⟨-, -, -, l, tables, hclient, -, hfits⟩
    · have hsame : (s.next .fill).client = s.client := hclient
      exact ⟨hsound, hsame ▸ h.surface, hsame ▸ h.tables⟩
    · have hnew : (s.next .fill).client = { s.client with tables := some tables } := hclient
      refine ⟨hsound, hnew ▸ h.surface, fun published hpublished => ?_⟩
      rw [hnew] at hpublished
      obtain rfl : tables = published := Option.some.inj hpublished
      exact distinct_of_fits h.surface hfits
  | add duplicates r => exact ⟨hsound, h.surface.attempt duplicates r, h.tables⟩
  | standIn symbols => exact ⟨hsound, h.surface, h.tables⟩
  | offer symbol =>
    unfold Session.next at hsound ⊢
    cases hsupply : s.supply with
    | standIn l =>
      rw [hsupply] at hsound
      exact ⟨hsound, h.surface, h.tables⟩
    | files tree images => exact h
  | withdraw symbol =>
    unfold Session.next at hsound ⊢
    cases hsupply : s.supply with
    | standIn l =>
      rw [hsupply] at hsound
      exact ⟨hsound, h.surface, h.tables⟩
    | files tree images => exact h
  | lay tree images => exact ⟨hsound, h.surface, h.tables⟩

/-- Whatever happens, nothing comes twice. -/
theorem Tidy.run (h : s.Tidy) (acts : List Act) : (s.run acts).Tidy := by
  induction acts generalizing s with
  | nil => exact h
  | cons a acts ih => exact ih (h.next a)

/-- A session with a surface that was built by adding records begins with nothing twice. -/
theorem tidy_start (duplicates : Duplicates) (records : List Record) (path : Path)
    (sentinel : Header.Slot) (tree : FileTree) (images : Images) :
    (start (Surface.History.of duplicates records).surface path sentinel tree images).Tidy where
  sound := sound_start _ path sentinel tree images
  surface := (Surface.History.follows_of duplicates records).wellFormed
  tables := fun _ htables => nomatch htables

/-- A call that succeeds leaves tables. -/
theorem initialized_fill (h : s.Sound) (hsucceeds : s.Succeeds) :
    (s.next .fill).client.initialized = true := by
  rcases call_cases h with ⟨hfails, -⟩ | ⟨-, -, -, l, tables, hclient, -⟩
  · exact absurd hsucceeds hfails
  · have hnew : (s.next .fill).client = { s.client with tables := some tables } := hclient
    rw [hnew]
    rfl

/-- Tables that are published are replaced at most. -/
theorem initialized_run (h : s.Sound) (hdone : s.client.initialized = true) (acts : List Act) :
    (s.run acts).client.initialized = true := by
  induction acts generalizing s with
  | nil => exact hdone
  | cons a acts ih =>
    refine ih (h.next a) ?_
    by_cases hquiet : a = .fill → ¬s.Succeeds
    · unfold Client.initialized
      rw [(next_keeps h hquiet).1]
      exact hdone
    · push Not at hquiet
      obtain ⟨rfl, hsucceeds⟩ := hquiet
      exact initialized_fill h hsucceeds

/-- After a call that succeeded there are tables, whatever happens next. -/
theorem initialized_of_succeeds (h : s.Sound) (hsucceeds : s.Succeeds) (after : List Act) :
    ((s.next .fill).run after).client.initialized = true :=
  initialized_run (h.next .fill) (initialized_fill h hsucceeds) after

end Session

/-- By attribute a table gives every slot that it gives by item. -/
def Table.Agrees (t : Table) : Prop :=
  ∀ name slot, t.getItem name = .ok slot → t.getAttribute name = .ok (.filed slot)

/-- By attribute a client gives every table that it publishes, and this every slot. -/
def Client.Agrees (c : Client) : Prop :=
  ∀ tables, c.published = .ok tables → ∀ group table, Keyed.get? group tables = some table →
    c.getAttribute group = .ok (.filed table) ∧ table.Agrees

/-- An item of a table is what is found under the name. -/
theorem Table.getItem_eq_ok_iff {t : Table} {name : String} {slot : Option Nat} :
    t.getItem name = .ok slot ↔ Keyed.get? name t.slots = some slot := by
  unfold getItem
  cases Keyed.get? name t.slots <;> simp

/-- The published tables are the tables of the client, if it has some. -/
theorem Client.published_eq_ok_iff {c : Client} {tables : List (String × Table)} :
    c.published = .ok tables ↔ c.tables = some tables := by
  unfold published
  cases c.tables <;> simp

/-- Without a member of its name in the way, a slot that is found is the attribute. -/
theorem Table.getAttribute_of_getItem {t : Table} {name : String} {slot : Option Nat}
    (h : t.getItem name = .ok slot) :
    t.getAttribute name = .ok (if name ∈ Table.members then .member name else .filed slot) := by
  have hfound := getItem_eq_ok_iff.mp h
  unfold getAttribute
  by_cases hmember : name ∈ Table.members
  · rw [if_pos (List.contains_iff_mem.mpr hmember), if_pos hmember]
  · rw [if_neg (by rwa [List.contains_iff_mem]), if_neg hmember, hfound]

/-- Without a member of its name in the way, the table of a group is the attribute. -/
theorem Client.getAttribute_of_published {c : Client} {tables : List (String × Table)}
    (h : c.published = .ok tables) {group : String} {table : Table}
    (hgroup : Keyed.get? group tables = some table) :
    c.getAttribute group =
      .ok (if group ∈ Client.members then .member group else .filed table) := by
  have htable : c.table group = .ok table := by
    unfold Client.table
    rw [published_eq_ok_iff.mp h, Option.bind_some, hgroup]
  unfold getAttribute
  by_cases hmember : group ∈ Client.members
  · rw [if_pos (List.contains_iff_mem.mpr hmember), if_pos hmember]
  · rw [if_neg (by rwa [List.contains_iff_mem]), if_neg hmember, htable]
    rfl

/-- What leads to a member does not lead to what is filed. -/
theorem ok_ite_member_eq_filed_iff {α : Type} {p : Prop} [Decidable p] {name : String} {value : α} :
    (Except.ok (if p then .member name else .filed value) : Except AccessFault (Attribute α)) =
      .ok (.filed value) ↔ ¬p := by
  by_cases h : p <;> simp [h]

/-- The attributes of a table agree with its items exactly if none of its names is a member. -/
theorem Table.agrees_iff (t : Table) : t.Agrees ↔ ∀ name ∈ t.names, name ∉ Table.members := by
  have hslot : ∀ name slot, t.getItem name = .ok slot →
      (t.getAttribute name = .ok (.filed slot) ↔ name ∉ Table.members) := by
    intro name slot hitem
    rw [getAttribute_of_getItem hitem, ok_ite_member_eq_filed_iff]
  constructor
  · intro hagrees name hname
    have hfound : Keyed.get? name t.slots ≠ none := fun hnone =>
      Keyed.get?_eq_none_iff.mp hnone hname
    obtain ⟨slot, hslot'⟩ := Option.ne_none_iff_exists'.mp hfound
    have hitem := getItem_eq_ok_iff.mpr hslot'
    exact (hslot name slot hitem).mp (hagrees name slot hitem)
  · intro hnone name slot hitem
    have hentry := Keyed.mem_of_get?_eq_some (getItem_eq_ok_iff.mp hitem)
    exact (hslot name slot hitem).mpr (hnone name (Keyed.mem_keys_of_mem hentry))

/-- The attributes of a client agree with the items of its tables exactly if no group and no name
is a member. -/
theorem Client.agrees_iff {c : Client} {tables : List (String × Table)}
    (h : c.published = .ok tables) (hdistinct : Distinct tables) :
    c.Agrees ↔ (∀ group ∈ Keyed.keys tables, group ∉ Client.members) ∧
      ∀ entry ∈ tables, ∀ name ∈ entry.2.names, name ∉ Table.members := by
  have hgroup : ∀ group table, (group, table) ∈ tables →
      (c.getAttribute group = .ok (.filed table) ↔ group ∉ Client.members) := by
    intro group table hentry
    have hfound := (Keyed.get?_eq_some_iff_mem hdistinct.groups_nodup).mpr hentry
    rw [getAttribute_of_published h hfound, ok_ite_member_eq_filed_iff]
  constructor
  · intro hagrees
    have heach : ∀ entry ∈ tables,
        c.getAttribute entry.1 = .ok (.filed entry.2) ∧ entry.2.Agrees := fun entry hentry =>
      hagrees tables h entry.1 entry.2
        ((Keyed.get?_eq_some_iff_mem hdistinct.groups_nodup).mpr hentry)
    refine ⟨fun group hkey => ?_, fun entry hentry => entry.2.agrees_iff.mp (heach entry hentry).2⟩
    obtain ⟨entry, hentry, rfl⟩ := List.mem_map.mp hkey
    exact (hgroup entry.1 entry.2 hentry).mp (heach entry hentry).1
  · intro hnone published hpublished group table hfound
    obtain rfl : tables = published := Except.ok.inj (h.symm.trans hpublished)
    have hentry := Keyed.mem_of_get?_eq_some hfound
    exact ⟨(hgroup group table hentry).mpr (hnone.1 group (Keyed.mem_keys_of_mem hentry)),
      table.agrees_iff.mpr (hnone.2 _ hentry)⟩

/-- The group of an annotation has no underscore. Of the members of a client only three can have
its name. -/
theorem Client.mem_members_iff_of_cut {group : String} (h : '_' ∉ group.toList) :
    group ∈ Client.members ↔ group ∈ ["initialize", "initialized", "tables"] := by
  have hother : ∀ member ∈ Client.members, '_' ∉ member.toList →
      member ∈ ["initialize", "initialized", "tables"] := by decide
  have hthree : ∀ name ∈ ["initialize", "initialized", "tables"], name ∈ Client.members := by decide
  exact ⟨fun hmember => hother group hmember h, fun hname => hthree group hname⟩

namespace Session

/-- After a call succeeded there are tables, whatever happens next. In them every group is found
under its name, and every slot under its own. The attribute of a group is its table, and that of a
name is its slot, unless the client or the table has a member of that name, which comes first. So
attributes and items agree exactly if no group and no name is the name of a member. -/
theorem attributes_agree_iff_no_member (duplicates : Duplicates) (records : List Record)
    (path : Path) (sentinel : Header.Slot) (tree : FileTree) (images : Images) (acts : List Act) :
    let fresh := start (Surface.History.of duplicates records).surface path sentinel tree images
    let now := fresh.run acts
    (∀ before after, acts = before ++ .fill :: after → (fresh.run before).Succeeds →
      ∃ tables, now.client.published = .ok tables) ∧
    ∀ tables, now.client.published = .ok tables →
      (∀ group table, (group, table) ∈ tables →
        Keyed.get? group tables = some table ∧
        now.client.getAttribute group =
          .ok (if group ∈ Client.members then .member group else .filed table) ∧
        ∀ name slot, (name, slot) ∈ table.slots →
          table.getItem name = .ok slot ∧
          table.getAttribute name =
            .ok (if name ∈ Table.members then .member name else .filed slot)) ∧
      (now.client.Agrees ↔ (∀ group ∈ Keyed.keys tables, group ∉ Client.members) ∧
        ∀ entry ∈ tables, ∀ name ∈ entry.2.names, name ∉ Table.members) := by
  intro fresh now
  have hfresh : fresh.Tidy := tidy_start duplicates records path sentinel tree images
  have hnow : now.Tidy := hfresh.run acts
  constructor
  · intro before after hacts hsucceeds
    have hrun : now = ((fresh.run before).next .fill).run after := by
      simp only [now, hacts, run, List.foldl_append, List.foldl_cons]
    have hdone := initialized_of_succeeds (hfresh.run before).sound hsucceeds after
    rw [← hrun] at hdone
    obtain ⟨tables, htables⟩ := Option.isSome_iff_exists.mp hdone
    exact ⟨tables, Client.published_eq_ok_iff.mpr htables⟩
  · intro tables hpublished
    have hdistinct := hnow.tables tables (Client.published_eq_ok_iff.mp hpublished)
    refine ⟨fun group table hentry => ?_, Client.agrees_iff hpublished hdistinct⟩
    have hfound := (Keyed.get?_eq_some_iff_mem hdistinct.groups_nodup).mpr hentry
    refine ⟨hfound, Client.getAttribute_of_published hpublished hfound, fun name slot hslot => ?_⟩
    have hitem : table.getItem name = .ok slot := Table.getItem_eq_ok_iff.mpr
      ((Keyed.get?_eq_some_iff_mem (hdistinct.names_nodup _ hentry)).mpr hslot)
    exact ⟨hitem, Table.getAttribute_of_getItem hitem⟩

/-- The symbols of a library in which a group has the name of a member of the client, and a function
of this group the name of a member of its table. -/
def shadowedSymbols : List String := ["Core_TickCount", "tables_names"]

/-- The records of its functions. -/
def shadowedRecords : List Record := [
  ⟨"Core", "TickCount", "uint32_t", [], "Core_TickCount", none⟩,
  ⟨"tables", "names", "int", [], "tables_names", none⟩]

/-- A session in which a client is filled from such a library. -/
def shadowedSession : Session :=
  (start (Surface.History.of .replace shadowedRecords).surface ⟨.here, ["components", "$CAPI.so"]⟩
    ⟨"Core", "TickCount"⟩ ⟨[], []⟩ []).run [.standIn shadowedSymbols, .fill]

/-- There the group has its table and the function its slot, but both attributes are members. -/
theorem shadowedSession_does_not_agree :
    ∃ tables table, shadowedSession.client.published = .ok tables ∧
      Keyed.get? "tables" tables = some table ∧ table.getItem "names" = .ok (some 1) ∧
      shadowedSession.client.getAttribute "tables" = .ok (.member "tables") ∧
      table.getAttribute "names" = .ok (.member "names") ∧
      ¬shadowedSession.client.Agrees := by
  have hpublished : shadowedSession.client.published =
      .ok [("Core", ⟨"Core", [("TickCount", some 0)]⟩),
        ("tables", ⟨"tables", [("names", some 1)]⟩)] :=
    rfl
  have hmember : shadowedSession.client.getAttribute "tables" = .ok (.member "tables") := rfl
  refine ⟨_, _, hpublished, rfl, rfl, hmember, rfl, fun hagrees => ?_⟩
  have hfiled := (hagrees _ hpublished "tables" _ rfl).1
  exact nomatch hmember.symm.trans hfiled

end Session

end Bindery.Library
