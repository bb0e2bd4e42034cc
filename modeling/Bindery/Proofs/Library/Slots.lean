import Bindery.Library.Access
import Bindery.Proofs.Library.Session
import Bindery.Proofs.Surface.History

/-!
# What the functions in slots show

A library that stands in for the loader has one function under each symbol, and this takes any
types, so that no record is refused. Binding a surface of which no record is refused gives each
function the types of all records under its symbol, one after another: a record with an unknown type
may still leave the type of its result behind. In the end a
function shows the last type of a result that was known, and the last parameters that were known
with their result. This does not depend on what was shown before, and so a second filling changes
nothing.
-/

namespace Bindery

namespace Record

/-- The type of the result, if it is known. -/
def result? (r : Record) : Option CType := (CType.ofSpelling r.returns).toOption

/-- The types of the parameters, if they and the type of the result are known. -/
def arguments? (r : Record) : Option (List CType) :=
  r.result?.bind fun _ => (Library.typesOf r.parameters).toOption

/-- The type of a result is known if its spelling has a type. -/
theorem result?_eq_some_iff {r : Record} {type : CType} :
    r.result? = some type ↔ CType.ofSpelling r.returns = .ok type := by
  unfold result?
  cases CType.ofSpelling r.returns <;> simp [Except.toOption]

/-- The parameters are known with their result if all spellings have types. -/
theorem arguments?_eq_some_iff {r : Record} {types : List CType} :
    r.arguments? = some types ↔
      (∃ type, CType.ofSpelling r.returns = .ok type) ∧
        Library.typesOf r.parameters = .ok types := by
  unfold arguments?
  simp only [Option.bind_eq_some_iff, result?_eq_some_iff]
  cases Library.typesOf r.parameters <;> simp [Except.toOption]

/-- The parameters are known with their result exactly if all types of the record are. -/
theorem isSome_arguments?_iff (r : Record) : r.arguments?.isSome = true ↔ r.Mapped := by
  simp only [Option.isSome_iff_exists, arguments?_eq_some_iff, exists_and_left,
    Library.exists_typesOf_iff, Mapped]

end Record

namespace Library

/-- A function after a record was bound to it: it takes over what is known of the record. -/
def Function.give (f : Function) (r : Record) : Function :=
  { f with returns := r.result?.getD f.returns, parameters := r.arguments?.or f.parameters }

/-- After several records a function shows the last result that was known, and the last parameters
that were known with their result. -/
theorem foldl_give (f : Function) (records : List Record) :
    records.foldl Function.give f =
      { f with
        returns := (records.filterMap Record.result?).getLast?.getD f.returns
        parameters := (records.filterMap Record.arguments?).getLast?.or f.parameters } := by
  induction records using List.reverseRecOn with
  | nil => rfl
  | append_singleton records r ih =>
    rw [List.foldl_concat, ih, Function.give, List.filterMap_append, List.filterMap_append,
      List.getLast?_append, List.getLast?_append]
    cases hresult : r.result? <;> cases harguments : r.arguments? <;> simp [hresult, harguments]

/-- Records that were bound already change nothing. -/
theorem foldl_give_foldl_give (f : Function) (records : List Record) :
    records.foldl Function.give (records.foldl Function.give f) =
      records.foldl Function.give f := by
  rw [foldl_give f, foldl_give]
  cases (records.filterMap Record.result?).getLast? <;>
    cases (records.filterMap Record.arguments?).getLast? <;> rfl

/-- What a list gives last is what its last element with something to give has. -/
theorem getLast?_filterMap_eq_some_iff {α β : Type} {f : α → Option β} {as : List α} {b : β} :
    (as.filterMap f).getLast? = some b ↔
      ∃ before a after, as = before ++ a :: after ∧ f a = some b ∧ ∀ c ∈ after, f c = none := by
  rw [List.getLast?_filterMap, List.findSome?_eq_some_iff]
  constructor
  · rintro ⟨after, a, before, has, ha, hafter⟩
    refine ⟨before.reverse, a, after.reverse, ?_, ha, by simpa using hafter⟩
    simpa using congrArg List.reverse has
  · rintro ⟨before, a, after, rfl, ha, hafter⟩
    exact ⟨after.reverse, a, before.reverse, by simp, ha, by simpa using hafter⟩

/-- Two symbols do not share a function. -/
def Opened.Apart (l : Opened) : Prop :=
  ∀ symbol other place, l.resolve symbol = some place → l.resolve other = some place →
    symbol = other

/-- A library that stands in for the loader: it takes any types, and has one function for each
symbol that it exports. -/
structure Opened.StandsIn (l : Opened) (store : Store) : Prop where
  /-- It takes any types. -/
  acceptsVoid : l.acceptsVoid = true
  /-- The functions are there. -/
  within : l.Within 0 store.length
  /-- Each symbol has a function of its own. -/
  apart : l.Apart

/-- A function that is added is shared with no other symbol. -/
theorem Opened.Apart.add {l : Opened} {store : Store} (h : l.Apart)
    (hwithin : l.Within 0 store.length) (added : String) : (l.add store added).1.Apart := by
  have hplaces : ∀ symbol place, (l.add store added).1.resolve symbol = some place →
      (symbol = added ∧ place = store.length) ∨
        (l.resolve symbol = some place ∧ place < store.length) := by
    intro symbol place hplace
    unfold Opened.add Opened.resolve at hplace
    by_cases hsymbol : symbol = added
    · subst hsymbol
      rw [Keyed.get?_put_self, Option.some.injEq] at hplace
      exact .inl ⟨rfl, hplace.symm⟩
    · rw [Keyed.get?_put_of_ne hsymbol] at hplace
      exact .inr ⟨hplace, (hwithin symbol place hplace).2⟩
  intro symbol other place hsymbol hother
  rcases hplaces _ _ hsymbol with ⟨rfl, hnew⟩ | ⟨hold, hlt⟩ <;>
    rcases hplaces _ _ hother with ⟨rfl, hnew'⟩ | ⟨hold', hlt'⟩
  · rfl
  · omega
  · omega
  · exact h _ _ place hold hold'

/-- Without a symbol the others do not share functions either. -/
theorem Opened.Apart.drop {l : Opened} (h : l.Apart) (dropped : String) :
    (l.drop dropped).Apart := by
  have hold : ∀ symbol place, (l.drop dropped).resolve symbol = some place →
      l.resolve symbol = some place := by
    intro symbol place hplace
    unfold Opened.drop Opened.resolve at hplace
    rw [Keyed.get?_erase] at hplace
    split at hplace
    · exact absurd hplace.symm (Option.some_ne_none place)
    · exact hplace
  intro symbol other place hsymbol hother
  exact h _ _ place (hold _ _ hsymbol) (hold _ _ hother)

/-- The symbols that a library is made of do not share functions. -/
theorem Opened.apart_ofSymbols (acceptsVoid : Bool) (store : Store) (symbols : List String) :
    (Opened.ofSymbols acceptsVoid store symbols).1.Apart := by
  have hmore : ∀ (l : Opened) (later : Store), l.Apart → l.Within 0 later.length →
      (symbols.foldl (fun p symbol => p.1.add p.2 symbol) (l, later)).1.Apart := by
    induction symbols with
    | nil => exact fun l later happart _ => happart
    | cons added symbols ih =>
      intro l later happart hwithin
      exact ih _ _ (happart.add hwithin added) (hwithin.add (Nat.zero_le _) added)
  exact hmore _ store (fun _ _ _ hplace => nomatch hplace) fun _ _ hplace => nomatch hplace

/-- A library made of symbols stands in, also after its functions were given other types. -/
theorem Opened.standsIn_ofSymbols {store later : Store} {symbols : List String}
    (h : later.length = (Opened.ofSymbols true store symbols).2.length) :
    (Opened.ofSymbols true store symbols).1.StandsIn later where
  acceptsVoid := acceptsVoid_ofSymbols true store symbols
  within := by
    rw [h]
    exact (ofSymbols_fresh true store symbols).2.mono (Nat.zero_le _) (Nat.le_refl _)
  apart := Opened.apart_ofSymbols true store symbols

/-- In a session the library that stands in keeps one function for each symbol. -/
theorem Session.Sound.apart_next {s : Session} (h : s.Sound)
    (happart : ∀ l, s.supply = .standIn l → l.Apart) (a : Act) :
    ∀ l, (s.next a).supply = .standIn l → l.Apart := by
  intro l hl
  cases a with
  | fill => exact happart l hl
  | add duplicates r => exact happart l hl
  | standIn symbols =>
    obtain rfl := Supply.standIn.inj hl
    exact Opened.apart_ofSymbols true s.store symbols
  | offer symbol =>
    unfold Session.next at hl
    cases hsupply : s.supply with
    | standIn old =>
      rw [hsupply] at hl
      obtain rfl := Supply.standIn.inj hl
      exact (happart old hsupply).add (h.standIn old hsupply).2 symbol
    | files tree images =>
      rw [hsupply] at hl
      exact nomatch hsupply.symm.trans hl
  | withdraw symbol =>
    unfold Session.next at hl
    cases hsupply : s.supply with
    | standIn old =>
      rw [hsupply] at hl
      obtain rfl := Supply.standIn.inj hl
      exact (happart old hsupply).drop symbol
    | files tree images =>
      rw [hsupply] at hl
      exact nomatch hsupply.symm.trans hl
  | lay tree images => exact nomatch hl

/-- Whatever happened in a session, a library that stands in for its loader has one function for
each symbol, and takes any types. -/
theorem Session.standsIn_run (surface : Surface) (path : Path) (sentinel : Header.Slot)
    (tree : FileTree) (images : Images) (acts : List Act) :
    ∀ l, ((start surface path sentinel tree images).run acts).supply = .standIn l →
      l.StandsIn ((start surface path sentinel tree images).run acts).store := by
  have hmore : ∀ s : Session, s.Sound → (∀ l, s.supply = .standIn l → l.Apart) →
      ∀ l, (s.run acts).supply = .standIn l → l.Apart := by
    induction acts with
    | nil => exact fun s _ happart => happart
    | cons a acts ih => exact fun s h happart => ih (s.next a) (h.next a) (h.apart_next happart a)
  have hstart := sound_start surface path sentinel tree images
  intro l hl
  obtain ⟨haccepts, hwithin⟩ := (hstart.run acts).standIn l hl
  exact ⟨haccepts, hwithin, hmore _ hstart (fun _ hfiles => nomatch hfiles) l hl⟩

/-- The slot of a record: the function under its symbol, if all types are known. -/
def Opened.slot (l : Opened) (r : Record) : Option Nat :=
  if r.arguments?.isSome then l.resolve r.symbol else none

/-- The functions after some records were bound, one after another. -/
def Opened.given (l : Opened) (store : Store) (records : List Record) : Store :=
  store.mapIdx fun place f =>
    (records.filter fun r => l.resolve r.symbol = some place).foldl Function.give f

/-- Without records no function is changed. -/
theorem Opened.given_nil (l : Opened) (store : Store) : l.given store [] = store :=
  List.ext_getElem? fun place => by simp [given]

/-- One record changes the function under its symbol. -/
theorem Opened.given_singleton (l : Opened) (store : Store) (r : Record) :
    l.given store [r] =
      match l.resolve r.symbol with
      | none => store
      | some place => store.modify place (·.give r) := by
  refine List.ext_getElem? fun other => ?_
  cases hplace : l.resolve r.symbol with
  | none => simp [given, hplace]
  | some place =>
    by_cases h : place = other
    · simp [given, hplace, h]
    · simp [given, hplace, h]

/-- Records that are bound later are bound to the functions as they are then. -/
theorem Opened.given_append (l : Opened) (store : Store) (first second : List Record) :
    l.given store (first ++ second) = l.given (l.given store first) second :=
  List.ext_getElem? fun place => by simp [given, List.filter_append, Function.comp_def]

/-- What was bound already changes nothing. -/
theorem Opened.given_given (l : Opened) (store : Store) (records : List Record) :
    l.given (l.given store records) records = l.given store records := by
  refine List.ext_getElem? fun place => ?_
  simp only [given, List.getElem?_mapIdx, Option.map_map, Function.comp_def,
    foldl_give_foldl_give]

namespace Client

/-- Binding a record without refusal gives the function what is known of the record, and ends by
whether all types are. -/
theorem exists_bind_eq {acceptsVoid : Bool} {r : Record}
    (h : ¬(acceptsVoid = false ∧ r.Mapped ∧ r.TakesVoid)) (place : Nat) :
    ∃ bound, (∀ store, bind acceptsVoid store place r = (store.modify place (·.give r), bound)) ∧
      (bound = .done ∧ r.arguments?.isSome = true ∨
        (∃ u, bound = .unknown u) ∧ r.arguments?.isSome = false) := by
  unfold bind
  cases hreturns : CType.ofSpelling r.returns with
  | error u =>
    have hresult : r.result? = none := by rw [Record.result?, hreturns, Except.toOption]
    have harguments : r.arguments? = none := by rw [Record.arguments?, hresult, Option.bind_none]
    have hgive : (fun f : Function => f.give r) = id := by
      funext f
      rw [Function.give, hresult, harguments]
      rfl
    refine ⟨.unknown u, fun store => ?_, .inr ⟨⟨u, rfl⟩, by rw [harguments, Option.isSome_none]⟩⟩
    rw [hgive, List.modify_id]
  | ok type =>
    have hresult : r.result? = some type := Record.result?_eq_some_iff.mpr hreturns
    dsimp only
    cases htypes : r.parameters.mapM fun p => CType.ofSpelling p.type with
    | error u =>
      have harguments : r.arguments? = none := by
        rw [Record.arguments?, hresult, Option.bind_some, typesOf, htypes, Except.toOption]
      refine ⟨.unknown u, fun store => ?_, .inr ⟨⟨u, rfl⟩, by rw [harguments, Option.isSome_none]⟩⟩
      simp [Function.give, hresult, harguments]
    | ok types =>
      have harguments : r.arguments? = some types :=
        Record.arguments?_eq_some_iff.mpr ⟨⟨type, hreturns⟩, htypes⟩
      have hnone : (if acceptsVoid then none else types.findIdx? (· = .void)) = none := by
        cases acceptsVoid with
        | true => rfl
        | false =>
          have hmapped : r.Mapped := ⟨⟨type, hreturns⟩, exists_typesOf_iff.mp ⟨types, htypes⟩⟩
          rw [if_neg Bool.false_ne_true, List.findIdx?_eq_none_iff]
          intro t ht
          refine decide_eq_false ?_
          rintro rfl
          exact h ⟨rfl, hmapped, (mem_typesOf_iff htypes).mp ht⟩
      refine ⟨.done, fun store => ?_, .inl ⟨rfl, by rw [harguments, Option.isSome_some]⟩⟩
      simp [hnone, Function.give, hresult, harguments, List.modify_modify_eq, Function.comp_def]

/-- Binding a record that is not refused fills its slot and reports in a way that does not depend on
what the functions show. -/
theorem exists_bindSlot_eq {l : Opened} {r : Record} (h : ¬l.Refuses r) :
    ∃ log, ∀ store, bindSlot l store r = (l.given store [r], ⟨log, .ok (l.slot r)⟩) := by
  unfold bindSlot
  simp only [Opened.given_singleton, Opened.slot]
  cases hplace : l.resolve r.symbol with
  | none => exact ⟨[notExported r], fun store => by simp⟩
  | some place =>
    have hexported : (l.resolve r.symbol).isSome = true := by rw [hplace, Option.isSome_some]
    have haccepted : ¬(l.acceptsVoid = false ∧ r.Mapped ∧ r.TakesVoid) := fun hrefused =>
      h ⟨hrefused.1, hexported, hrefused.2⟩
    obtain ⟨bound, hbind, hbound⟩ := exists_bind_eq haccepted place
    simp only [hbind]
    rcases hbound with ⟨rfl, hknown⟩ | ⟨⟨u, rfl⟩, hunknown⟩
    · exact ⟨[], fun store => by simp [hknown, Logged.pure_def]⟩
    · exact ⟨[leftUnbound r u], fun store => by simp [hunknown]⟩

/-- Activities that succeed with each item of a list, and report and succeed independently of the
store, do so one after another. -/
theorem exists_forAll_eq {α β : Type} {each : Store → α → Store × Logged VoidParameter β}
    {next : Store → α → Store} {value : α → β} {as : List α}
    (heach : ∀ a ∈ as, ∃ log, ∀ store, each store a = (next store a, ⟨log, .ok (value a)⟩)) :
    ∃ log, ∀ store, forAll each store as = (as.foldl next store, ⟨log, .ok (as.map value)⟩) := by
  induction as with
  | nil => exact ⟨[], fun store => rfl⟩
  | cons a as ih =>
    obtain ⟨log, hfirst⟩ := heach a List.mem_cons_self
    obtain ⟨later, hrest⟩ := ih fun b hb => heach b (List.mem_cons_of_mem a hb)
    refine ⟨log ++ later, fun store => ?_⟩
    rw [forAll, hfirst]
    dsimp only
    rw [hrest]
    rfl

/-- The table of a section of a surface. -/
def tableOf (l : Opened) (group : String × List Record) : String × Table :=
  (group.1, ⟨group.1, group.2.map fun r => (r.name, l.slot r)⟩)

/-- Binding the records of a group one after another is giving them one after another. -/
theorem foldl_given (l : Opened) (store : Store) (records : List Record) :
    records.foldl (fun store r => l.given store [r]) store = l.given store records := by
  induction records using List.reverseRecOn with
  | nil => exact (l.given_nil store).symm
  | append_singleton records r ih => rw [List.foldl_concat, ih, l.given_append]

/-- Binding a surface of which no record is refused gives all records, in order, and makes a table
for each section. -/
theorem exists_bindSurface_eq {l : Opened} {s : Surface} (h : ∀ r ∈ s.toList, ¬l.Refuses r) :
    ∃ log, ∀ store, bindSurface l store s =
      (l.given store s.toList, ⟨log, .ok (s.sections.map (tableOf l))⟩) := by
  have hgroup : ∀ group ∈ s.sections, ∃ log, ∀ store, bindGroup l store group =
      (l.given store group.2, ⟨log, .ok (tableOf l group)⟩) := by
    intro group hmem
    have hslot : ∀ r ∈ group.2, ∃ log, ∀ store,
        bindSlot l store r = (l.given store [r], ⟨log, .ok (l.slot r)⟩) := fun r hr =>
      exists_bindSlot_eq (h r (Surface.mem_toList_iff_sections.mpr ⟨group, hmem, hr⟩))
    obtain ⟨log, hslots⟩ := exists_forAll_eq hslot
    refine ⟨log, fun store => ?_⟩
    rw [bindGroup, hslots, foldl_given]
    simp only [Except.map, List.zip_map', tableOf]
  obtain ⟨log, htables⟩ := exists_forAll_eq hgroup
  refine ⟨log, fun store => ?_⟩
  have hstore : s.sections.foldl (fun store group => l.given store group.2) store =
      l.given store s.toList := by
    rw [Surface.toList_eq_flatMap_sections]
    generalize s.sections = sections
    induction sections using List.reverseRecOn with
    | nil => exact (l.given_nil store).symm
    | append_singleton sections group ih =>
      rw [List.foldl_concat, ih, List.flatMap_append, l.given_append, List.flatMap_singleton]
  rw [bindSurface, htables, hstore]

/-- Filling from a library that exports the mandatory symbol and refuses no record succeeds, and
gives all records of the surface. What it publishes and reports does not depend on earlier tables
and on what the functions show. -/
theorem exists_fill_eq {c : Client} {l : Opened} (h : ∀ r ∈ c.surface.toList, ¬l.Refuses r)
    (hsentinel : (l.resolve c.sentinelSymbol).isSome = true) :
    ∃ log, ∀ tables store, fill { c with tables } store (.ok l) =
      ⟨{ c with tables := some (c.surface.sections.map (tableOf l)) },
        l.given store c.surface.toList, ⟨log, .ok true⟩⟩ := by
  obtain ⟨place, hplace⟩ := Option.isSome_iff_exists.mp hsentinel
  obtain ⟨log, hbind⟩ := exists_bindSurface_eq h
  refine ⟨log, fun tables store => ?_⟩
  have hsame : l.resolve (sentinelSymbol { c with tables }) = some place := hplace
  unfold fill
  dsimp only
  rw [hsame]
  dsimp only
  rw [hbind]

/-- In the tables of a well-formed surface each record has its slot. -/
theorem getItem_tableOf {c : Client} {l : Opened} (hwf : c.surface.WellFormed)
    (htables : c.tables = some (c.surface.sections.map (tableOf l))) {r : Record}
    (hr : r ∈ c.surface.toList) :
    ∃ table, c.table r.group = .ok table ∧ table.getItem r.name = .ok (l.slot r) := by
  have hget : c.surface.get? r.group r.name = some r := hwf.get?_eq_some_iff.mpr ⟨hr, rfl⟩
  unfold Surface.get? Surface.group at hget
  cases hgroup : Keyed.get? r.group c.surface.groups with
  | none => simp [hgroup, Keyed.get?] at hget
  | some entries =>
    rw [hgroup, Option.getD_some] at hget
    -- The table is the one of the group, and in it the slots stand under the names of the group.
    have htable : Keyed.get? r.group (c.surface.sections.map (tableOf l)) =
        some ⟨r.group, (Keyed.values entries).map fun q => (q.name, l.slot q)⟩ := by
      have hmap := Keyed.get?_map (fun group (entries : List (String × Record)) =>
        (⟨group, (Keyed.values entries).map fun q => (q.name, l.slot q)⟩ : Table)) r.group
        c.surface.groups
      rw [hgroup, Option.map_some] at hmap
      rw [Surface.sections, List.map_map]
      exact hmap
    have hnames : ((Keyed.values entries).map fun q => (q.name, l.slot q)) =
        entries.map fun e => (e.1, l.slot e.2) := by
      rw [Keyed.values, List.map_map]
      refine List.map_congr_left fun e he => ?_
      have hfiled := hwf.filed _ (Keyed.mem_of_get?_eq_some hgroup) e he
      exact Prod.ext (congrArg Prod.snd hfiled) rfl
    have hslot : Keyed.get? r.name (entries.map fun e => (e.1, l.slot e.2)) = some (l.slot r) := by
      rw [Keyed.get?_map fun _ q => l.slot q, hget, Option.map_some]
    refine ⟨⟨r.group, (Keyed.values entries).map fun q => (q.name, l.slot q)⟩, ?_, ?_⟩
    · rw [Client.table, htables, Option.bind_some, htable]
    · rw [Table.getItem]
      dsimp only
      rw [hnames, hslot]

end Client

/-- The last record of a list with a property. -/
def IsLast (p : Record → Prop) (records : List Record) (r : Record) : Prop :=
  p r ∧ ∃ before after, records = before ++ r :: after ∧ ∀ later ∈ after, ¬p later

/-- The last record has the property, and is one of the list. -/
theorem IsLast.mem {p : Record → Prop} {records : List Record} {r : Record}
    (h : IsLast p records r) : r ∈ records := by
  obtain ⟨-, before, after, rfl, -⟩ := h
  exact List.mem_append_right _ List.mem_cons_self

/-- What some records under a symbol give last comes from the last of them that gives anything. -/
theorem exists_isLast {β : Type} (give : Record → Option β) (known : Record → Prop)
    (hknown : ∀ r, (give r).isSome = true ↔ known r) {symbol : String} {records : List Record}
    {r : Record} (hr : r ∈ records) (hsymbol : r.symbol = symbol) (hgives : known r) :
    ∃ q b, IsLast (fun q => q.symbol = symbol ∧ known q) records q ∧ give q = some b ∧
      ((records.filter (·.symbol = symbol)).filterMap give).getLast? = some b := by
  rw [List.filterMap_filter]
  set given := fun q : Record => if decide (q.symbol = symbol) = true then give q else none
    with hgiven
  have hgiven_iff : ∀ q, (given q).isSome = true ↔ q.symbol = symbol ∧ known q := by
    intro q
    by_cases h : q.symbol = symbol <;> simp [hgiven, h, hknown]
  have hne : (records.filterMap given).getLast? ≠ none := by
    rw [ne_eq, List.getLast?_eq_none_iff, List.filterMap_eq_nil_iff]
    intro hnone
    have hsome := (hgiven_iff r).mpr ⟨hsymbol, hgives⟩
    rw [hnone r hr] at hsome
    exact absurd hsome Bool.false_ne_true
  obtain ⟨b, hb⟩ := Option.ne_none_iff_exists'.mp hne
  obtain ⟨before, q, after, hsplit, hq, hafter⟩ := getLast?_filterMap_eq_some_iff.mp hb
  have hlast := (hgiven_iff q).mp (by rw [hq, Option.isSome_some])
  refine ⟨q, b, ⟨hlast, before, after, hsplit, fun later hlater hgives' => ?_⟩, ?_, hb⟩
  · have hsome := (hgiven_iff later).mpr hgives'
    rw [hafter later hlater] at hsome
    exact absurd hsome Bool.false_ne_true
  · simpa [hgiven, hlast.1] using hq

/-- A function shows, of the records under a symbol, the last known type of a result, and the
parameters of the last record of which all types are known. -/
structure Function.ShowsLast (f : Function) (records : List Record) (symbol : String) : Prop where
  /-- The type of the result is that of the last record with a known one. -/
  returns : ∃ q, IsLast (fun q => q.symbol = symbol ∧
      ∃ type, CType.ofSpelling q.returns = .ok type) records q ∧
    CType.ofSpelling q.returns = .ok f.returns
  /-- The parameters are those of the last record of which all types are known. -/
  parameters : ∃ q types, IsLast (fun q => q.symbol = symbol ∧ q.Mapped) records q ∧
    typesOf q.parameters = .ok types ∧ f.parameters = some types

/-- A function shows the types of one record. -/
def Function.ShowsTypesOf (f : Function) (r : Record) : Prop :=
  CType.ofSpelling r.returns = .ok f.returns ∧
    ∃ types, typesOf r.parameters = .ok types ∧ f.parameters = some types

/-- Where symbols do not repeat, the last record under a symbol is the only one. -/
theorem Function.ShowsLast.showsTypesOf {f : Function} {records : List Record} {r : Record}
    (h : f.ShowsLast records r.symbol) (hr : r ∈ records)
    (hsymbols : (records.map Record.symbol).Nodup) : f.ShowsTypesOf r := by
  have honly : ∀ q ∈ records, q.symbol = r.symbol → q = r := fun q hq hsymbol =>
    List.inj_on_of_nodup_map hsymbols hq hr hsymbol
  obtain ⟨q, hq, hreturns⟩ := h.returns
  obtain ⟨q', types, hq', htypes, hparameters⟩ := h.parameters
  obtain rfl := honly q hq.mem hq.1.1
  obtain rfl := honly q' hq'.mem hq'.1.1
  exact ⟨hreturns, types, htypes, hparameters⟩

/-- After records were bound, the function under a symbol shows the last types that were known, if
there is a record under it of which all are. -/
theorem Opened.Apart.showsLast {l : Opened} {store : Store} (h : l.Apart)
    (hwithin : l.Within 0 store.length) {records : List Record} {r : Record} (hr : r ∈ records)
    (hmapped : r.Mapped) {place : Nat} (hplace : l.resolve r.symbol = some place) :
    ∃ f, (l.given store records)[place]? = some f ∧ f.ShowsLast records r.symbol := by
  have hsame : (records.filter fun q => l.resolve q.symbol = some place) =
      records.filter (·.symbol = r.symbol) := by
    refine List.filter_congr fun q _ => decide_eq_decide.mpr ⟨fun hq => ?_, fun hq => ?_⟩
    · exact h _ _ place hq hplace
    · rw [hq, hplace]
  obtain ⟨f, hf⟩ : ∃ f, store[place]? = some f :=
    ⟨_, List.getElem?_eq_getElem ((hwithin _ place hplace).2)⟩
  have hresults : ∀ q : Record, q.result?.isSome = true ↔
      ∃ type, CType.ofSpelling q.returns = .ok type := fun q => by
    simp only [Option.isSome_iff_exists, Record.result?_eq_some_iff]
  obtain ⟨q, type, hq, hresult, hreturns⟩ := exists_isLast _ _ hresults hr rfl hmapped.1
  obtain ⟨q', types, hq', harguments, hparameters⟩ :=
    exists_isLast _ _ (fun q => q.isSome_arguments?_iff) hr rfl hmapped
  refine ⟨{ f with returns := type, parameters := some types }, ?_, ?_, ?_⟩
  · rw [Opened.given, List.getElem?_mapIdx, hf, Option.map_some, hsame, foldl_give, hreturns,
      hparameters]
    rfl
  · exact ⟨q, hq, Record.result?_eq_some_iff.mp hresult⟩
  · exact ⟨q', types, hq', (Record.arguments?_eq_some_iff.mp harguments).2, rfl⟩

namespace Client

/-- What a record's slot holds after a filling. -/
structure SlotShows (l : Opened) (done : Filled) (r : Record) (slot : Option Nat) : Prop where
  /-- It is empty exactly if the symbol is not exported or a type is unknown. -/
  eq_none_iff : slot = none ↔ l.resolve r.symbol = none ∨ ¬r.Mapped
  /-- It holds the function under the symbol, and this shows the last types that were known. -/
  showsLast : ∀ place ∈ slot, l.resolve r.symbol = some place ∧
    ∃ f, done.store[place]? = some f ∧ f.ShowsLast done.client.surface.toList r.symbol ∧
      ((done.client.surface.toList.map Record.symbol).Nodup → f.ShowsTypesOf r)

/-- Where the records of a surface were given to the functions of a library, the slot of each record
shows what it is to show. -/
theorem slotShows_of_given {l : Opened} {store : Store} (happart : l.Apart)
    (hwithin : l.Within 0 store.length) {done : Filled}
    (hstore : done.store = l.given store done.client.surface.toList) {r : Record}
    (hr : r ∈ done.client.surface.toList) : SlotShows l done r (l.slot r) := by
  refine ⟨?_, fun place hplace => ?_⟩
  · rw [Opened.slot, ← r.isSome_arguments?_iff]
    cases r.arguments?.isSome <;> simp
  · by_cases hmapped : r.Mapped
    · rw [Opened.slot, if_pos (r.isSome_arguments?_iff.mpr hmapped)] at hplace
      obtain ⟨f, hf, hshows⟩ := happart.showsLast hwithin hr hmapped hplace
      rw [← hstore] at hf
      exact ⟨hplace, f, hf, hshows, hshows.showsTypesOf hr⟩
    · rw [Opened.slot, if_neg (mt r.isSome_arguments?_iff.mp hmapped)] at hplace
      exact nomatch hplace

/-- Filling a client from a library that stands in and exports the mandatory symbol succeeds,
whatever its functions showed before. Each record then has its slot, with the function under its
symbol unless this is not exported or a type is unknown; the function shows, of all records under
the symbol, the last known type of a result and the last parameters that were known with their
result, and so the record's own types if symbols do not repeat. A second filling changes nothing.
-/
theorem slots_show_last_known_types {c : Client} {duplicates : Duplicates} {records : List Record}
    {l : Opened} {store : Store}
    (hsurface : c.surface = (Surface.History.of duplicates records).surface)
    (hstands : l.StandsIn store) (hsentinel : (l.resolve c.sentinelSymbol).isSome = true) :
    (c.fill store (.ok l)).report.result = .ok true ∧
    (∀ r ∈ c.surface.toList, ∃ table slot,
      (c.fill store (.ok l)).client.table r.group = .ok table ∧
      table.getItem r.name = .ok slot ∧ SlotShows l (c.fill store (.ok l)) r slot) ∧
    (c.fill store (.ok l)).client.fill (c.fill store (.ok l)).store (.ok l) =
      c.fill store (.ok l) := by
  have hwf : c.surface.WellFormed := by
    rw [hsurface]
    exact (Surface.History.follows_of duplicates records).wellFormed
  have hnone : ∀ r ∈ c.surface.toList, ¬l.Refuses r := fun r _ hrefused =>
    nomatch hstands.acceptsVoid.symm.trans hrefused.1
  obtain ⟨log, hfill⟩ := exists_fill_eq hnone hsentinel
  have hdone := hfill c.tables store
  have hagain := hfill (some (c.surface.sections.map (tableOf l)))
    (l.given store c.surface.toList)
  rw [l.given_given] at hagain
  change c.fill store (.ok l) = _ at hdone
  rw [hdone]
  refine ⟨rfl, fun r hr => ?_, hagain⟩
  obtain ⟨table, htable, hitem⟩ := getItem_tableOf
    (c := { c with tables := some (c.surface.sections.map (tableOf l)) }) hwf rfl hr
  exact ⟨table, l.slot r, htable, hitem, slotShows_of_given hstands.apart hstands.within rfl hr⟩

/-- Functions under a symbol of their own, and three under a shared symbol: one with known types,
one with a known result and an unknown parameter, and one with an unknown result. -/
def sharingRecords : List Record := [
  ⟨"Core", "TickCount", "uint32_t", [], "Core_TickCount", none⟩,
  ⟨"Actor", "Create", "int", [⟨"float", "x"⟩, ⟨"void", "y"⟩], "Shared", none⟩,
  ⟨"Actor", "Destroy", "bool", [⟨"Handle", "actor"⟩], "Shared", none⟩,
  ⟨"Actor", "Name", "Text", [], "Shared", none⟩,
  ⟨"Actor", "Absent", "int", [], "Actor_Absent", none⟩]

/-- A client of these functions. -/
def sharingClient : Client where
  surface := (Surface.History.of .replace sharingRecords).surface
  path := ⟨.here, []⟩
  sentinel := ⟨"Core", "TickCount"⟩

/-- A library that exports two of their symbols. -/
def sharingLibrary : Opened := (Opened.ofSymbols true [] ["Core_TickCount", "Shared"]).1

/-- Its functions, with some types that they showed before. -/
def sharingStore : Store :=
  [⟨"Core_TickCount", .double, some [.int]⟩, ⟨"Shared", .long, none⟩]

/-- The slots of the client show the last known types, also under the shared symbol. -/
theorem slots_show_types_under_shared_symbol :
    sharingLibrary.StandsIn sharingStore ∧
    (sharingLibrary.resolve sharingClient.sentinelSymbol).isSome = true ∧
    (sharingClient.fill sharingStore (.ok sharingLibrary)).report.result = .ok true ∧
    (∀ r ∈ sharingClient.surface.toList, ∃ table slot,
      (sharingClient.fill sharingStore (.ok sharingLibrary)).client.table r.group = .ok table ∧
      table.getItem r.name = .ok slot ∧
      SlotShows sharingLibrary (sharingClient.fill sharingStore (.ok sharingLibrary)) r slot) ∧
    (sharingClient.fill sharingStore (.ok sharingLibrary)).client.fill
        (sharingClient.fill sharingStore (.ok sharingLibrary)).store (.ok sharingLibrary) =
      sharingClient.fill sharingStore (.ok sharingLibrary) := by
  have hstands : sharingLibrary.StandsIn sharingStore := Opened.standsIn_ofSymbols rfl
  have hsentinel : (sharingLibrary.resolve sharingClient.sentinelSymbol).isSome = true := rfl
  exact ⟨hstands, hsentinel, slots_show_last_known_types rfl hstands hsentinel⟩

end Client

end Library

end Bindery
