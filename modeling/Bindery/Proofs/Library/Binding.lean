import Bindery.Library.Access
import Bindery.Library.Client
import Bindery.Proofs.Surface

/-!
# Which slots a client fills

Whether a record is bound, left empty or refused depends on the library and on the types of the
record alone, and not on the functions that were bound before it. A client that is filled has a
slot for every record of its surface.
-/

namespace Bindery

/-- All types of a record are known. -/
def Record.Mapped (r : Record) : Prop :=
  (∃ type, CType.ofSpelling r.returns = .ok type) ∧
    ∀ p ∈ r.parameters, ∃ type, CType.ofSpelling p.type = .ok type

/-- A record takes a parameter of type `void`. -/
def Record.TakesVoid (r : Record) : Prop :=
  ∃ p ∈ r.parameters, CType.ofSpelling p.type = .ok .void

namespace Library

/-- A library refuses a record: it exports the function, and the types are known, but one of the
parameters has a type that it does not accept. -/
def Opened.Refuses (l : Opened) (r : Record) : Prop :=
  l.acceptsVoid = false ∧ (l.resolve r.symbol).isSome = true ∧ r.Mapped ∧ r.TakesVoid

/-- An activity succeeds exactly under a condition, and then its value has a property. -/
structure Meets {ε β : Type} (condition : Prop) (property : β → Prop) (x : Logged ε β) : Prop where
  /-- It succeeds exactly under the condition. -/
  succeeds_iff : (∃ b, x.result = .ok b) ↔ condition
  /-- Its value has the property. -/
  property_of_ok : ∀ b, x.result = .ok b → property b

/-- A value that is made into another one has the property that this brings. -/
theorem Meets.map {ε β γ : Type} {condition : Prop} {property : β → Prop} {wanted : γ → Prop}
    {x : Logged ε β} (h : Meets condition property x) {f : β → γ}
    (hf : ∀ b, property b → wanted (f b)) :
    Meets condition wanted ⟨x.log, x.result.map f⟩ := by
  obtain ⟨log, result⟩ := x
  cases result with
  | error e =>
    refine ⟨⟨?_, fun hc => ?_⟩, fun c hc => nomatch hc⟩
    · rintro ⟨c, hc⟩
      exact nomatch hc
    · obtain ⟨b, hb⟩ := h.succeeds_iff.mpr hc
      exact nomatch hb
  | ok b =>
    refine ⟨iff_of_true ⟨f b, rfl⟩ (h.succeeds_iff.mp ⟨b, rfl⟩), ?_⟩
    intro c hc
    obtain rfl : f b = c := Except.ok.inj hc
    exact hf b (h.property_of_ok b rfl)

/-- The types of some parameters, if all are known. -/
abbrev typesOf (parameters : List Parameter) : Except CType.Unknown (List CType) :=
  parameters.mapM fun p => CType.ofSpelling p.type

/-- The types of one parameter and more are its type and theirs. -/
theorem typesOf_cons_eq_ok_iff {p : Parameter} {parameters : List Parameter}
    {types : List CType} :
    typesOf (p :: parameters) = .ok types ↔ ∃ type rest, CType.ofSpelling p.type = .ok type ∧
      typesOf parameters = .ok rest ∧ type :: rest = types := by
  unfold typesOf
  rw [List.mapM_cons]
  cases CType.ofSpelling p.type with
  | error u => simp [Bind.bind, Except.bind]
  | ok type =>
    cases parameters.mapM fun p => CType.ofSpelling p.type with
    | error u => simp [Bind.bind, Except.bind]
    | ok rest => simp [Bind.bind, Except.bind, pure, Except.pure]

/-- Parameters have types exactly if each one has. -/
theorem exists_typesOf_iff {parameters : List Parameter} :
    (∃ types, typesOf parameters = .ok types) ↔
      ∀ p ∈ parameters, ∃ type, CType.ofSpelling p.type = .ok type := by
  induction parameters with
  | nil => simp [typesOf, pure, Except.pure]
  | cons p parameters ih =>
    rw [List.forall_mem_cons, ← ih]
    constructor
    · rintro ⟨types, h⟩
      obtain ⟨type, rest, hp, hrest, -⟩ := typesOf_cons_eq_ok_iff.mp h
      exact ⟨⟨type, hp⟩, ⟨rest, hrest⟩⟩
    · rintro ⟨⟨type, hp⟩, ⟨rest, hrest⟩⟩
      exact ⟨type :: rest, typesOf_cons_eq_ok_iff.mpr ⟨type, rest, hp, hrest, rfl⟩⟩

/-- The types of parameters are those of the single ones. -/
theorem mem_typesOf_iff {parameters : List Parameter} {types : List CType}
    (h : typesOf parameters = .ok types) {type : CType} :
    type ∈ types ↔ ∃ p ∈ parameters, CType.ofSpelling p.type = .ok type := by
  induction parameters generalizing types with
  | nil =>
    obtain rfl : [] = types := Except.ok.inj h
    simp
  | cons p parameters ih =>
    obtain ⟨first, rest, hp, hrest, rfl⟩ := typesOf_cons_eq_ok_iff.mp h
    rw [List.mem_cons, ih hrest, List.exists_mem_cons_iff, hp, Except.ok.injEq, eq_comm]

/-- How the binding of a record ends: it is refused for a type `void` among known types, or fails
for an unknown type, or is done. -/
theorem bind_cases (acceptsVoid : Bool) (store : Store) (place : Nat) (r : Record) :
    (∃ v, (bind acceptsVoid store place r).2 = .refused v) ∧ acceptsVoid = false ∧ r.Mapped ∧
        r.TakesVoid ∨
      (∃ u, (bind acceptsVoid store place r).2 = .unknown u) ∧ ¬r.Mapped ∨
      (bind acceptsVoid store place r).2 = .done ∧ r.Mapped ∧
        ¬(acceptsVoid = false ∧ r.TakesVoid) := by
  unfold bind
  cases hreturns : CType.ofSpelling r.returns with
  | error u =>
    have hnot : ¬r.Mapped := by
      rintro ⟨⟨type, htype⟩, -⟩
      rw [hreturns] at htype
      exact nomatch htype
    exact .inr (.inl ⟨⟨u, rfl⟩, hnot⟩)
  | ok type =>
    dsimp only
    cases htypes : r.parameters.mapM fun p => CType.ofSpelling p.type with
    | error u =>
      have hnot : ¬r.Mapped := by
        rintro ⟨-, hall⟩
        obtain ⟨types, hok⟩ := exists_typesOf_iff.mpr hall
        exact nomatch htypes.symm.trans hok
      exact .inr (.inl ⟨⟨u, rfl⟩, hnot⟩)
    | ok types =>
      have hmapped : r.Mapped := ⟨⟨type, hreturns⟩, exists_typesOf_iff.mp ⟨types, htypes⟩⟩
      have hvoid : r.TakesVoid ↔ CType.void ∈ types := (mem_typesOf_iff htypes).symm
      dsimp only
      cases acceptsVoid with
      | true => exact .inr (.inr ⟨rfl, hmapped, by simp⟩)
      | false =>
        rw [if_neg Bool.false_ne_true]
        cases hindex : types.findIdx? (· = .void) with
        | none =>
          have hnone : ∀ t ∈ types, ¬t = CType.void := by
            simpa [List.findIdx?_eq_none_iff] using hindex
          exact .inr (.inr ⟨rfl, hmapped, fun h => hnone _ (hvoid.mp h.2) rfl⟩)
        | some index =>
          have hsome : CType.void ∈ types := by
            have hne : types.findIdx? (· = .void) ≠ none := by simp [hindex]
            simpa [List.findIdx?_eq_none_iff] using hne
          exact .inl ⟨⟨_, rfl⟩, rfl, hmapped, hvoid.mpr hsome⟩

/-- A library that gets one more function exports this one too. -/
theorem isSome_resolve_add (l : Opened) (store : Store) (added symbol : String) :
    ((l.add store added).1.resolve symbol).isSome = true ↔
      symbol = added ∨ (l.resolve symbol).isSome = true := by
  unfold Opened.add Opened.resolve
  dsimp only
  by_cases h : symbol = added
  · subst h
    rw [Keyed.get?_put_self]
    simp
  · rw [Keyed.get?_put_of_ne h]
    simp [h]

/-- A library made of some symbols exports these and no others. -/
theorem isSome_resolve_ofSymbols (acceptsVoid : Bool) (store : Store) (symbols : List String)
    (symbol : String) :
    ((Opened.ofSymbols acceptsVoid store symbols).1.resolve symbol).isSome = true ↔
      symbol ∈ symbols := by
  have hmore : ∀ (l : Opened) (store : Store),
      ((symbols.foldl (fun p symbol => p.1.add p.2 symbol) (l, store)).1.resolve symbol).isSome =
        true ↔ symbol ∈ symbols ∨ (l.resolve symbol).isSome = true := by
    induction symbols with
    | nil => simp
    | cons added symbols ih =>
      intro l store
      rw [List.foldl_cons, List.mem_cons]
      have hrest := ih (l.add store added).1 (l.add store added).2
      rw [isSome_resolve_add] at hrest
      rw [hrest]
      tauto
  have hnone : ((⟨[], acceptsVoid⟩ : Opened).resolve symbol).isSome = true ↔ False := by
    simp [Opened.resolve, Keyed.get?]
  exact (hmore ⟨[], acceptsVoid⟩ store).trans (by rw [hnone, or_false])

/-- A library made of some symbols accepts `void` as it is told to. -/
theorem acceptsVoid_ofSymbols (acceptsVoid : Bool) (store : Store) (symbols : List String) :
    (Opened.ofSymbols acceptsVoid store symbols).1.acceptsVoid = acceptsVoid := by
  have hmore : ∀ (l : Opened) (store : Store),
      (symbols.foldl (fun p symbol => p.1.add p.2 symbol) (l, store)).1.acceptsVoid =
        l.acceptsVoid := by
    induction symbols with
    | nil => exact fun l store => rfl
    | cons added symbols ih => exact fun l store => ih _ _
  exact hmore _ _

namespace Client

/-- The slot of a record is empty exactly if its symbol is missing or a type is unknown. -/
def SlotOf (l : Opened) (r : Record) (slot : Option Nat) : Prop :=
  slot = none ↔ (l.resolve r.symbol).isSome = false ∨ ¬r.Mapped

/-- A record that the library does not refuse gets its slot. -/
theorem bindSlot_meets (l : Opened) (store : Store) (r : Record) :
    Meets (¬l.Refuses r) (SlotOf l r) (bindSlot l store r).2 := by
  unfold bindSlot
  cases hplace : l.resolve r.symbol with
  | none =>
    have hnot : ¬l.Refuses r := by simp [Opened.Refuses, hplace]
    refine ⟨iff_of_true ⟨none, rfl⟩ hnot, ?_⟩
    intro slot hslot
    obtain rfl : none = slot := Except.ok.inj hslot
    simp [SlotOf, hplace]
  | some place =>
    have hexported : (l.resolve r.symbol).isSome = true := by rw [hplace, Option.isSome_some]
    dsimp only
    generalize hbound : bind l.acceptsVoid store place r = bound
    obtain ⟨store', bound⟩ := bound
    have hcases := bind_cases l.acceptsVoid store place r
    rw [hbound] at hcases
    rcases hcases with ⟨⟨v, rfl⟩, hrefused⟩ | ⟨⟨u, rfl⟩, hnot⟩ | ⟨rfl, hmapped, hnot⟩
    · obtain ⟨haccepts, hmapped, hvoid⟩ := hrefused
      have hrefuses : l.Refuses r := ⟨haccepts, hexported, hmapped, hvoid⟩
      refine ⟨iff_of_false ?_ (not_not.mpr hrefuses), ?_⟩
      · rintro ⟨slot, hslot⟩
        exact nomatch hslot
      · intro slot hslot
        exact nomatch hslot
    · refine ⟨iff_of_true ⟨none, rfl⟩ fun h => hnot h.2.2.1, ?_⟩
      intro slot hslot
      obtain rfl : none = slot := Except.ok.inj hslot
      exact iff_of_true rfl (.inr hnot)
    · refine ⟨iff_of_true ⟨some place, rfl⟩ fun h => hnot ⟨h.1, h.2.2.2⟩, ?_⟩
      intro slot hslot
      obtain rfl : some place = slot := Except.ok.inj hslot
      simp [SlotOf, hexported, hmapped]

/-- Activities that succeed under conditions of their own succeed one after another if all these
conditions hold, whatever the store is, and then each value has its property. -/
theorem forAll_meets {α β : Type} {each : Store → α → Store × Logged VoidParameter β}
    {condition : α → Prop} {property : α → β → Prop}
    (heach : ∀ store a, Meets (condition a) (property a) (each store a).2) (store : Store)
    (as : List α) :
    Meets (∀ a ∈ as, condition a) (List.Forall₂ property as) (forAll each store as).2 := by
  induction as generalizing store with
  | nil =>
    refine ⟨iff_of_true ⟨[], rfl⟩ (by simp), ?_⟩
    intro bs hbs
    obtain rfl : [] = bs := Except.ok.inj hbs
    exact .nil
  | cons a as ih =>
    have hfirst := heach store a
    rw [forAll]
    generalize each store a = done at hfirst
    obtain ⟨store', log, result⟩ := done
    cases result with
    | error v =>
      have hnot : ¬condition a := by
        intro ha
        obtain ⟨b, hb⟩ := hfirst.succeeds_iff.mpr ha
        exact nomatch hb
      refine ⟨iff_of_false ?_ fun h => hnot (h a List.mem_cons_self), ?_⟩
      · rintro ⟨bs, hbs⟩
        exact nomatch hbs
      · intro bs hbs
        exact nomatch hbs
    | ok b =>
      have ha := hfirst.succeeds_iff.mp ⟨b, rfl⟩
      have hb := hfirst.property_of_ok b rfl
      have hrest := ih store'
      dsimp only
      generalize forAll each store' as = later at hrest
      obtain ⟨store'', log', result'⟩ := later
      rw [List.forall_mem_cons, and_iff_right ha]
      cases result' with
      | error v =>
        refine ⟨⟨?_, fun h => ?_⟩, ?_⟩
        · rintro ⟨bs, hbs⟩
          exact nomatch hbs
        · obtain ⟨bs, hbs⟩ := hrest.succeeds_iff.mpr h
          exact nomatch hbs
        · intro bs hbs
          exact nomatch hbs
      | ok bs =>
        refine ⟨iff_of_true ⟨b :: bs, rfl⟩ (hrest.succeeds_iff.mp ⟨bs, rfl⟩), ?_⟩
        intro all hall
        obtain rfl : b :: bs = all := Except.ok.inj hall
        exact .cons hb (hrest.property_of_ok bs rfl)

/-- A published table belongs to a section: it has the slots of the section's records under their
names. -/
def TableOf (l : Opened) (group : String × List Record) (entry : String × Table) : Prop :=
  entry.1 = group.1 ∧
    List.Forall₂ (fun r slot => slot.1 = r.name ∧ SlotOf l r slot.2) group.2 entry.2.slots

/-- The table of a group that the library does not refuse is bound. -/
theorem bindGroup_meets (l : Opened) (store : Store) (group : String × List Record) :
    Meets (∀ r ∈ group.2, ¬l.Refuses r) (TableOf l group) (bindGroup l store group).2 := by
  have hslots := forAll_meets (bindSlot_meets l) store group.2
  have hnamed : ∀ {records : List Record} {slots : List (Option Nat)},
      List.Forall₂ (SlotOf l) records slots →
      List.Forall₂ (fun r slot => slot.1 = r.name ∧ SlotOf l r slot.2) records
        ((records.map Record.name).zip slots) := by
    intro records slots h
    induction h with
    | nil => exact .nil
    | cons hslot _ ih => exact .cons ⟨rfl, hslot⟩ ih
  exact hslots.map fun slots h => ⟨rfl, hnamed h⟩

/-- The tables of a surface are bound if the library refuses none of its records. -/
theorem bindSurface_meets (l : Opened) (store : Store) (s : Surface) :
    Meets (∀ r ∈ s.toList, ¬l.Refuses r) (List.Forall₂ (TableOf l) s.sections)
      (bindSurface l store s).2 := by
  have hsections : (∀ r ∈ s.toList, ¬l.Refuses r) ↔
      ∀ g ∈ s.sections, ∀ r ∈ g.2, ¬l.Refuses r := by
    simp only [Surface.mem_toList_iff_sections]
    exact ⟨fun h g hg r hr => h r ⟨g, hg, hr⟩, fun h r ⟨g, hg, hr⟩ => h g hg r hr⟩
  rw [hsections]
  exact forAll_meets (bindGroup_meets l) store s.sections

/-- The tables of a well-formed surface have a slot for each of its records. -/
theorem exists_slot {l : Opened} {s : Surface} (h : s.WellFormed)
    {tables : List (String × Table)} (htables : List.Forall₂ (TableOf l) s.sections tables)
    {r : Record} (hr : r ∈ s.toList) :
    ∃ table slot, Keyed.get? r.group tables = some table ∧
      Keyed.get? r.name table.slots = some slot ∧ SlotOf l r slot := by
  have hget : s.get? r.group r.name = some r := h.get?_eq_some_iff.mpr ⟨hr, rfl⟩
  -- The table is the one beside the group of the record.
  have hbeside : List.Forall₂ (fun g entry => TableOf l (g.1, Keyed.values g.2) entry) s.groups
      tables := by
    unfold Surface.sections at htables
    rwa [List.forall₂_map_left_iff] at htables
  have htable := Keyed.get?_beside
    (fun g entry hentry => (by rw [hentry.1] : g.1 = r.group ↔ entry.1 = r.group)) hbeside
  unfold Surface.get? Surface.group at hget
  cases hgroup : Keyed.get? r.group s.groups with
  | none => simp [hgroup, Keyed.get?] at hget
  | some records =>
    rw [hgroup, Option.getD_some] at hget
    rw [hgroup] at htable
    generalize hfound : Keyed.get? r.group tables = found at htable
    cases htable with
    | @some _ table hentry =>
      -- The slot is the one beside the record itself, which is filed under its name.
      have hfiled : ∀ e ∈ records, e.1 = e.2.name := fun e he =>
        (congrArg Prod.snd (h.filed _ (Keyed.mem_of_get?_eq_some hgroup) e he)).symm
      have hslots := hentry.2
      unfold Keyed.values at hslots
      rw [List.forall₂_map_left_iff] at hslots
      have hslot := Keyed.get?_beside
        (fun e slot hboth => (by rw [hboth.1, hboth.2.1] : e.1 = r.name ↔ slot.1 = r.name))
        ((List.forall₂_and_left _ _).mpr ⟨hfiled, hslots⟩)
      rw [hget] at hslot
      generalize hfound' : Keyed.get? r.name table.slots = found' at hslot
      cases hslot with
      | @some _ slot hboth => exact ⟨table, slot, rfl, hfound', hboth.2.2⟩

/-- Without the mandatory function a filling reports that there is no success, and changes nothing.
-/
theorem fill_of_resolve_eq_none {c : Client} {l : Opened}
    (h : l.resolve c.sentinelSymbol = none) (store : Store) :
    (c.fill store (.ok l)).report.result = .ok false ∧ (c.fill store (.ok l)).client = c := by
  unfold fill
  dsimp only
  rw [h]
  exact ⟨rfl, rfl⟩

/-- With the mandatory function a filling succeeds exactly if no record is refused, and then the
client has a slot for every record of its surface. -/
theorem fill_of_resolve_ne_none {c : Client} {l : Opened}
    (h : l.resolve c.sentinelSymbol ≠ none) (hwf : c.surface.WellFormed) (store : Store) :
    ((c.fill store (.ok l)).report.result = .ok true ↔ ∀ r ∈ c.surface.toList, ¬l.Refuses r) ∧
    (c.fill store (.ok l)).report.result ≠ .ok false ∧
    ((c.fill store (.ok l)).report.result = .ok true → ∀ r ∈ c.surface.toList,
      ∃ table slot, (c.fill store (.ok l)).client.table r.group = .ok table ∧
        table.getItem r.name = .ok slot ∧ SlotOf l r slot) := by
  obtain ⟨place, hplace⟩ := Option.ne_none_iff_exists'.mp h
  have hbound := bindSurface_meets l store c.surface
  unfold fill
  dsimp only
  rw [hplace]
  dsimp only
  generalize bindSurface l store c.surface = done at hbound
  obtain ⟨store', log, result⟩ := done
  cases result with
  | error v =>
    have hrefused : ¬∀ r ∈ c.surface.toList, ¬l.Refuses r := by
      intro hnone
      obtain ⟨tables, htables⟩ := hbound.succeeds_iff.mpr hnone
      exact nomatch htables
    exact ⟨iff_of_false (by simp) hrefused, by simp, by simp⟩
  | ok tables =>
    have hnone := hbound.succeeds_iff.mp ⟨tables, rfl⟩
    have htables := hbound.property_of_ok tables rfl
    dsimp only
    refine ⟨iff_of_true rfl hnone, by simp, fun _ r hr => ?_⟩
    obtain ⟨table, slot, htable, hslot, hof⟩ := exists_slot hwf htables hr
    refine ⟨table, slot, ?_, ?_, hof⟩
    · simp [Client.table, htable]
    · simp [Table.getItem, hslot]

/-- With the mandatory function, a record that is refused fails the filling, which leaves the client
as it was. -/
theorem fill_of_refuses {c : Client} {l : Opened}
    (hsentinel : (l.resolve c.sentinelSymbol).isSome = true)
    (h : ∃ r ∈ c.surface.toList, l.Refuses r) (store : Store) :
    (∃ v, (c.fill store (.ok l)).report.result = .error v) ∧
      (c.fill store (.ok l)).client = c := by
  obtain ⟨place, hplace⟩ := Option.isSome_iff_exists.mp hsentinel
  have hbound := bindSurface_meets l store c.surface
  unfold fill
  dsimp only
  rw [hplace]
  dsimp only
  generalize bindSurface l store c.surface = done at hbound
  obtain ⟨store', log, result⟩ := done
  cases result with
  | error v => exact ⟨⟨v, rfl⟩, rfl⟩
  | ok tables =>
    obtain ⟨r, hr, hrefused⟩ := h
    exact absurd hrefused (hbound.succeeds_iff.mp ⟨tables, rfl⟩ r hr)

/-- Connecting a client to a library that opens is filling it from a library that is made of the
names that the client looks for and whose symbols are there. -/
theorem exists_names_of_openImage {c : Client} {t : FileTree} {images : Images}
    {symbols : List String} (h : openImage t images c.path = .ok symbols) (store : Store) :
    ∃ names, c.connect t images store = c.fill (Opened.ofSymbols false store names).2
        (.ok (Opened.ofSymbols false store names).1) ∧
      ∀ name, name ∈ names ↔ name ∈ c.names ∧ symbolOf name ∈ symbols := by
  refine ⟨c.names.filter fun name => symbols.contains (symbolOf name), ?_, by simp⟩
  unfold connect openFile
  rw [h]

/-- Connecting a client to a library that opens is filling it from a library that exports, of the
names that the client looks for, those whose symbols are there. It does not accept `void`. -/
theorem exists_fill_of_openImage {c : Client} {t : FileTree} {images : Images}
    {symbols : List String} (h : openImage t images c.path = .ok symbols) (store : Store) :
    ∃ l store', c.connect t images store = c.fill store' (.ok l) ∧ l.acceptsVoid = false ∧
      ∀ name ∈ c.names, ((l.resolve name).isSome = true ↔ symbolOf name ∈ symbols) := by
  obtain ⟨names, hfill, hnames⟩ := exists_names_of_openImage h store
  refine ⟨_, _, hfill, acceptsVoid_ofSymbols false store names, fun name hname => ?_⟩
  rw [isSome_resolve_ofSymbols, hnames, and_iff_right hname]

end Client

end Library

end Bindery
