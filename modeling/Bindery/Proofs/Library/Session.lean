import Bindery.Library.Session
import Bindery.Proofs.Library.Binding

/-!
# What a client publishes in a session

Filling the tables changes functions of the library that was opened and no others. From files these
are new ones, so that a filling that fails has touched nothing that was published; a library that
stands in shares its functions with tables published before, but never fails once it is opened and
compatible. Published tables therefore stay what they were, types of functions included, until
other tables take their place.
-/

namespace Bindery.Library

section Keeping

variable {floor : Nat} {store store' store'' : Store}

/-- A store has all functions of an earlier one, and those below a floor unchanged. -/
structure Keeps (floor : Nat) (store store' : Store) : Prop where
  /-- No function is lost. -/
  length_le : store.length ≤ store'.length
  /-- The functions below the floor show the same types. -/
  same : ∀ place < floor, store'[place]? = store[place]?

/-- A store keeps its own functions. -/
theorem Keeps.refl (floor : Nat) (store : Store) : Keeps floor store store :=
  ⟨Nat.le_refl _, fun _ _ => rfl⟩

/-- What is kept twice is kept. -/
theorem Keeps.trans (h : Keeps floor store store') (h' : Keeps floor store' store'') :
    Keeps floor store store'' :=
  ⟨Nat.le_trans h.length_le h'.length_le, fun place hplace =>
    (h'.same place hplace).trans (h.same place hplace)⟩

/-- What is kept below a floor is kept below a lower one. -/
theorem Keeps.mono (h : Keeps floor store store') {lower : Nat} (hle : lower ≤ floor) :
    Keeps lower store store' :=
  ⟨h.length_le, fun place hplace => h.same place (Nat.lt_of_lt_of_le hplace hle)⟩

/-- New functions come after the old ones. -/
theorem keeps_append (store new : Store) : Keeps store.length store (store ++ new) :=
  ⟨by simp, fun _ hplace => List.getElem?_append_left hplace⟩

/-- Changing a function above the floor keeps those below it. -/
theorem keeps_modify {place : Nat} (h : floor ≤ place) (store : Store) (f : Function → Function) :
    Keeps floor store (store.modify place f) := by
  refine ⟨Nat.le_of_eq (List.length_modify ..).symm, fun other hother => ?_⟩
  have hne : place ≠ other := by omega
  exact List.getElem?_modify_ne f store hne

/-- Binding touches the function that is bound. -/
theorem keeps_bind {place : Nat} (h : floor ≤ place) (acceptsVoid : Bool) (store : Store)
    (r : Record) : Keeps floor store (bind acceptsVoid store place r).1 := by
  unfold bind
  cases CType.ofSpelling r.returns with
  | error u => exact .refl floor store
  | ok type =>
    -- The type of the result is set before anything can go wrong with the parameters.
    have hreturns := keeps_modify h store fun f => { f with returns := type }
    dsimp only
    cases r.parameters.mapM fun p => CType.ofSpelling p.type with
    | error u => exact hreturns
    | ok types =>
      dsimp only
      cases if acceptsVoid then none else types.findIdx? (· = .void) with
      | some index => exact hreturns
      | none => exact hreturns.trans (keeps_modify h _ _)

end Keeping

/-- All functions of a library lie between two places. -/
def Opened.Within (l : Opened) (floor bound : Nat) : Prop :=
  ∀ symbol place, l.resolve symbol = some place → floor ≤ place ∧ place < bound

namespace Opened

variable {l : Opened} {floor bound : Nat}

/-- The bounds may be wider. -/
theorem Within.mono (h : l.Within floor bound) {lower higher : Nat} (hlower : lower ≤ floor)
    (hhigher : bound ≤ higher) : l.Within lower higher := by
  intro symbol place hplace
  have hold := h symbol place hplace
  exact ⟨Nat.le_trans hlower hold.1, Nat.lt_of_lt_of_le hold.2 hhigher⟩

/-- A function that is added lies at the end of the store. -/
theorem Within.add {store : Store} (h : l.Within floor store.length) (hfloor : floor ≤ store.length)
    (added : String) : (l.add store added).1.Within floor (l.add store added).2.length := by
  intro symbol place hplace
  unfold Opened.add Opened.resolve at hplace
  unfold Opened.add
  rw [List.length_append, List.length_singleton]
  by_cases hsymbol : symbol = added
  · subst hsymbol
    rw [Keyed.get?_put_self, Option.some.injEq] at hplace
    omega
  · rw [Keyed.get?_put_of_ne hsymbol] at hplace
    have hold := h symbol place hplace
    omega

/-- Without a symbol the other functions are where they were. -/
theorem Within.drop (h : l.Within floor bound) (symbol : String) :
    (l.drop symbol).Within floor bound := by
  intro other place hplace
  unfold Opened.drop Opened.resolve at hplace
  rw [Keyed.get?_erase] at hplace
  split at hplace
  · exact absurd hplace.symm (Option.some_ne_none place)
  · exact h other place hplace

/-- A library made of symbols has functions of its own, behind those that there were. -/
theorem ofSymbols_fresh (acceptsVoid : Bool) (store : Store) (symbols : List String) :
    Keeps store.length store (ofSymbols acceptsVoid store symbols).2 ∧
      (ofSymbols acceptsVoid store symbols).1.Within store.length
        (ofSymbols acceptsVoid store symbols).2.length := by
  have hmore : ∀ (l : Opened) (later : Store), Keeps store.length store later →
      l.Within store.length later.length →
      let done := symbols.foldl (fun p symbol => p.1.add p.2 symbol) (l, later)
      Keeps store.length store done.2 ∧ done.1.Within store.length done.2.length := by
    induction symbols with
    | nil => exact fun l later hkeeps hwithin => ⟨hkeeps, hwithin⟩
    | cons added symbols ih =>
      intro l later hkeeps hwithin
      refine ih _ _ (hkeeps.trans ?_) (hwithin.add hkeeps.length_le added)
      exact (keeps_append later _).mono hkeeps.length_le
  exact hmore _ store (.refl _ _) fun symbol place hplace => nomatch hplace

end Opened

/-- A file that opens gives a library with functions of its own, which are those of the names whose
symbols it exports. -/
theorem openFile_cases (t : FileTree) (images : Images) (store : Store) (p : Path)
    (names : List String) :
    (∃ f, openFile t images store p names = (.error f, store)) ∨
      ∃ symbols l store', openImage t images p = .ok symbols ∧
        openFile t images store p names = (.ok l, store') ∧
        Keeps store.length store store' ∧ l.Within store.length store'.length ∧
        ∀ name, (l.resolve name).isSome = true → symbolOf name ∈ symbols := by
  unfold openFile
  cases openImage t images p with
  | error f => exact .inl ⟨f, rfl⟩
  | ok symbols =>
    obtain ⟨hkeeps, hwithin⟩ := Opened.ofSymbols_fresh false store
      (names.filter fun name => symbols.contains (symbolOf name))
    refine .inr ⟨symbols, _, _, rfl, rfl, hkeeps, hwithin, fun name hname => ?_⟩
    have hmem := (isSome_resolve_ofSymbols false store _ name).mp hname
    simpa using (List.mem_filter.mp hmem).2

namespace Client

section Filling

variable {l : Opened} {floor bound : Nat}

/-- Activities that keep functions do so one after another. -/
theorem keeps_forAll {α β : Type} {each : Store → α → Store × Logged VoidParameter β}
    (heach : ∀ store a, Keeps floor store (each store a).1) (store : Store) (as : List α) :
    Keeps floor store (forAll each store as).1 := by
  induction as generalizing store with
  | nil => exact .refl floor store
  | cons a as ih =>
    have hfirst := heach store a
    rw [forAll]
    generalize each store a = done at hfirst
    obtain ⟨store', log, result⟩ := done
    cases result with
    | error v => exact hfirst
    | ok b => exact hfirst.trans (ih store')

/-- Binding a record touches functions of the library only. -/
theorem keeps_bindSlot (h : l.Within floor bound) (store : Store) (r : Record) :
    Keeps floor store (bindSlot l store r).1 := by
  unfold bindSlot
  cases hplace : l.resolve r.symbol with
  | none => exact .refl floor store
  | some place =>
    have hbind := keeps_bind (h r.symbol place hplace).1 l.acceptsVoid store r
    dsimp only
    generalize bind l.acceptsVoid store place r = bound at hbind
    obtain ⟨store', bound⟩ := bound
    cases bound <;> exact hbind

/-- Binding a surface touches functions of the library only. -/
theorem keeps_bindSurface (h : l.Within floor bound) (store : Store) (s : Surface) :
    Keeps floor store (bindSurface l store s).1 :=
  have hgroup : ∀ store group, Keeps floor store (bindGroup l store group).1 :=
    fun store group => keeps_forAll (keeps_bindSlot h) store group.2
  keeps_forAll hgroup store s.sections

/-- The values of activities are in order those of the single ones. -/
theorem forall₂_of_forAll_eq_ok {α β : Type} {each : Store → α → Store × Logged VoidParameter β}
    {R : α → β → Prop} (heach : ∀ store a b, (each store a).2.result = .ok b → R a b)
    {store : Store} {as : List α} {bs : List β} (h : (forAll each store as).2.result = .ok bs) :
    List.Forall₂ R as bs := by
  induction as generalizing store bs with
  | nil =>
    obtain rfl : [] = bs := Except.ok.inj h
    exact .nil
  | cons a as ih =>
    have hfirst := heach store a
    rw [forAll] at h
    generalize each store a = done at hfirst h
    obtain ⟨store', log, result⟩ := done
    cases result with
    | error v => cases h
    | ok b =>
      dsimp only at h
      cases hrest : (forAll each store' as).2.result with
      | error v =>
        rw [hrest] at h
        cases h
      | ok rest =>
        rw [hrest] at h
        obtain rfl : b :: rest = bs := Except.ok.inj h
        exact .cons (hfirst b rfl) (ih hrest)

/-- A slot that is not empty has the function of the library. -/
theorem resolve_of_bindSlot_eq_ok {store : Store} {r : Record} {slot : Option Nat}
    (h : (bindSlot l store r).2.result = .ok slot) {place : Nat} (hplace : place ∈ slot) :
    l.resolve r.symbol = some place := by
  unfold bindSlot at h
  cases hresolve : l.resolve r.symbol with
  | none =>
    rw [hresolve] at h
    obtain rfl : none = slot := Except.ok.inj h
    exact nomatch hplace
  | some found =>
    rw [hresolve] at h
    dsimp only at h
    generalize bind l.acceptsVoid store found r = bound at h
    obtain ⟨store', bound⟩ := bound
    cases bound with
    | done =>
      obtain rfl : some found = slot := Except.ok.inj h
      exact hplace
    | unknown u =>
      obtain rfl : none = slot := Except.ok.inj h
      exact nomatch hplace
    | refused v => exact nomatch h

/-- A table has the name and the slot names of a section, and its functions are those of the
library. -/
structure Fits (l : Opened) (section_ : String × List Record) (entry : String × Table) : Prop where
  /-- It is filed under the group. -/
  filed : entry.1 = section_.1
  /-- It knows its group. -/
  group : entry.2.group = section_.1
  /-- Its slots have the names of the records. -/
  names : entry.2.names = section_.2.map Record.name
  /-- Its functions come from the library. -/
  resolved : ∀ slot ∈ entry.2.slots, ∀ place ∈ slot.2, ∃ symbol, l.resolve symbol = some place

/-- The table of a group fits it. -/
theorem fits_of_bindGroup_eq_ok {store : Store} {group : String × List Record}
    {entry : String × Table} (h : (bindGroup l store group).2.result = .ok entry) :
    Fits l group entry := by
  unfold bindGroup at h
  dsimp only at h
  cases hslots : (forAll (bindSlot l) store group.2).2.result with
  | error v =>
    rw [hslots] at h
    exact nomatch h
  | ok slots =>
    rw [hslots] at h
    obtain rfl := Except.ok.inj h
    have hfound := forall₂_of_forAll_eq_ok (R := fun r slot => ∀ place ∈ slot,
      l.resolve r.symbol = some place) (fun _ _ _ hok _ => resolve_of_bindSlot_eq_ok hok) hslots
    have hlength : (group.2.map Record.name).length = slots.length := by
      rw [List.length_map, hfound.length_eq]
    refine ⟨rfl, rfl, List.map_fst_zip (Nat.le_of_eq hlength), ?_⟩
    intro named hnamed place hplace
    dsimp only at hnamed
    rw [List.zip_map_left] at hnamed
    obtain ⟨⟨r, slot⟩, hslot, rfl⟩ := List.mem_map.mp hnamed
    exact ⟨r.symbol, List.forall₂_zip hfound hslot place hplace⟩

/-- A filling publishes tables that fit its surface, or leaves the client as it was. -/
theorem fill_cases (c : Client) (store : Store) (opening : Except OpenFault Opened) :
    (c.fill store opening).report.result ≠ .ok true ∧ (c.fill store opening).client = c ∨
      (c.fill store opening).report.result = .ok true ∧ ∃ l tables, opening = .ok l ∧
        (l.resolve c.sentinelSymbol).isSome = true ∧
        (c.fill store opening).client = { c with tables := some tables } ∧
        List.Forall₂ (Fits l) c.surface.sections tables := by
  unfold fill
  cases opening with
  | error f => exact .inl ⟨by simp, rfl⟩
  | ok l =>
    dsimp only
    cases hsentinel : l.resolve c.sentinelSymbol with
    | none => exact .inl ⟨by simp, rfl⟩
    | some place =>
      have hgroup : ∀ store group entry, (bindGroup l store group).2.result = .ok entry →
          Fits l group entry := fun _ _ _ hok => fits_of_bindGroup_eq_ok hok
      have hfits : ∀ tables, (bindSurface l store c.surface).2.result = .ok tables →
          List.Forall₂ (Fits l) c.surface.sections tables :=
        fun tables htables => forall₂_of_forAll_eq_ok hgroup htables
      dsimp only
      generalize bindSurface l store c.surface = done at hfits
      obtain ⟨store', log, result⟩ := done
      cases result with
      | error v => exact .inl ⟨by simp, rfl⟩
      | ok tables =>
        refine .inr ⟨rfl, l, tables, rfl, ?_, rfl, hfits tables rfl⟩
        rw [hsentinel, Option.isSome_some]

/-- A filling touches functions of the library only. -/
theorem keeps_fill (c : Client) (store : Store) {opening : Except OpenFault Opened}
    (h : ∀ l, opening = .ok l → l.Within floor bound) :
    Keeps floor store (c.fill store opening).store := by
  unfold fill
  cases opening with
  | error f => exact .refl floor store
  | ok l =>
    dsimp only
    cases l.resolve c.sentinelSymbol with
    | none => exact .refl floor store
    | some place =>
      have hbound := keeps_bindSurface (h l rfl) store c.surface
      dsimp only
      generalize bindSurface l store c.surface = done at hbound
      obtain ⟨store', log, result⟩ := done
      cases result <;> exact hbound

/-- A filling that fails, though the functions of the library take any types, has touched none of
them: it ended before the first was bound. -/
theorem store_fill_of_acceptsVoid (c : Client) (store : Store) {opening : Except OpenFault Opened}
    (h : ∀ l, opening = .ok l → l.acceptsVoid = true)
    (hfails : (c.fill store opening).report.result ≠ .ok true) :
    (c.fill store opening).store = store := by
  unfold fill at hfails ⊢
  cases opening with
  | error f => rfl
  | ok l =>
    dsimp only at hfails ⊢
    cases hsentinel : l.resolve c.sentinelSymbol with
    | none => rfl
    | some place =>
      have hnone : ∀ r ∈ c.surface.toList, ¬l.Refuses r := by
        rintro r - ⟨hrefuses, -⟩
        exact nomatch (h l rfl).symm.trans hrefuses
      obtain ⟨tables, htables⟩ := (bindSurface_meets l store c.surface).succeeds_iff.mpr hnone
      rw [hsentinel] at hfails
      dsimp only at hfails
      generalize bindSurface l store c.surface = done at htables hfails
      obtain ⟨store', log, result⟩ := done
      obtain rfl : result = .ok tables := htables
      exact absurd rfl hfails

end Filling

end Client

namespace Session

variable {s s' : Session} {a : Act} {acts : List Act}

/-- A call now reports success. -/
def Succeeds (s : Session) : Prop := s.call.report.result = .ok true

/-- The library opens now, and exports a symbol. -/
def Exports (s : Session) (symbol : String) : Prop :=
  match s.supply with
  | .standIn l => (l.resolve symbol).isSome = true
  | .files tree images =>
    ∃ symbols, openImage tree images s.client.path = .ok symbols ∧ symbolOf symbol ∈ symbols

/-- Every function that a table or a library has is there. -/
structure Sound (s : Session) : Prop where
  /-- The functions of published tables are there. -/
  published : ∀ tables, s.client.tables = some tables →
    ∀ entry ∈ tables, ∀ slot ∈ entry.2.slots, ∀ place ∈ slot.2, place < s.store.length
  /-- The functions of a library that stands in are there, and take any types. -/
  standIn : ∀ l, s.supply = .standIn l → l.acceptsVoid = true ∧ l.Within 0 s.store.length

/-- A library as a call may get it: its functions are there, and either take any types or are all
new; what it exports is exported by what the loader finds. -/
structure Gets (s : Session) (l : Opened) (store : Store) : Prop where
  /-- The functions are there. -/
  within : l.Within 0 store.length
  /-- No published function can be left half bound. -/
  apart : l.acceptsVoid = true ∨ l.Within s.store.length store.length
  /-- What is resolved is exported. -/
  exports : ∀ symbol, (l.resolve symbol).isSome = true → s.Exports symbol

/-- A call fills the client from what the loader gives, if it gives anything; opening it leaves all
functions alone. -/
theorem exists_call_eq_fill (h : s.Sound) :
    ∃ store opening, s.call = s.client.fill store opening ∧ Keeps s.store.length s.store store ∧
      ∀ l, opening = .ok l → s.Gets l store := by
  unfold call
  cases hsupply : s.supply with
  | standIn l =>
    obtain ⟨haccepts, hwithin⟩ := h.standIn l hsupply
    refine ⟨s.store, .ok l, rfl, .refl _ _, fun l' hl' => ?_⟩
    obtain rfl := Except.ok.inj hl'
    refine ⟨hwithin, .inl haccepts, fun symbol hsymbol => ?_⟩
    simpa only [Exports, hsupply] using hsymbol
  | files tree images =>
    dsimp only
    unfold Client.connect
    rcases openFile_cases tree images s.store s.client.path s.client.names with
      ⟨f, hopen⟩ | ⟨symbols, l, store, himage, hopen, hkeeps, hwithin, hexports⟩
    · rw [hopen]
      exact ⟨s.store, .error f, rfl, .refl _ _, fun l hl => nomatch hl⟩
    · rw [hopen]
      refine ⟨store, .ok l, rfl, hkeeps, fun l' hl' => ?_⟩
      obtain rfl := Except.ok.inj hl'
      refine ⟨hwithin.mono (Nat.zero_le _) (Nat.le_refl _), .inr hwithin, fun symbol hsymbol => ?_⟩
      simp only [Exports, hsupply]
      exact ⟨symbols, himage, hexports symbol hsymbol⟩

/-- A call that does not succeed leaves the client and the functions alone. One that does finds the
mandatory function exported, and publishes tables that fit the surface. -/
theorem call_cases (h : s.Sound) :
    ¬s.Succeeds ∧ s.call.client = s.client ∧ Keeps s.store.length s.store s.call.store ∨
      s.Succeeds ∧ s.Exports s.client.sentinelSymbol ∧ s.store.length ≤ s.call.store.length ∧
        ∃ l tables, s.call.client = { s.client with tables := some tables } ∧
          l.Within 0 s.call.store.length ∧
          List.Forall₂ (Client.Fits l) s.client.surface.sections tables := by
  obtain ⟨store, opening, hcall, hkeeps, hgets⟩ := exists_call_eq_fill h
  have hany := Client.keeps_fill s.client store fun l hl => (hgets l hl).within
  unfold Succeeds
  rw [hcall]
  rcases s.client.fill_cases store opening with
    ⟨hfails, hclient⟩ | ⟨hdone, l, tables, rfl, hsentinel, hclient, hfits⟩
  · refine .inl ⟨hfails, hclient, ?_⟩
    -- Either nothing was bound, or what was bound is new.
    by_cases happly : ∀ l, opening = .ok l → l.acceptsVoid = true
    · rw [Client.store_fill_of_acceptsVoid s.client store happly hfails]
      exact hkeeps
    · push Not at happly
      obtain ⟨l, rfl, hrefuses⟩ := happly
      have hnew : ∀ l', (Except.ok l : Except OpenFault Opened) = .ok l' →
          l'.Within s.store.length store.length := by
        intro l' hl'
        obtain rfl := Except.ok.inj hl'
        exact (hgets l rfl).apart.resolve_left hrefuses
      exact hkeeps.trans (Client.keeps_fill s.client store hnew)
  · have hgot := hgets l rfl
    refine .inr ⟨hdone, hgot.exports _ hsentinel, ?_, l, tables, hclient, ?_, hfits⟩
    · exact Nat.le_trans hkeeps.length_le hany.length_le
    · exact hgot.within.mono (Nat.le_refl _) hany.length_le

/-- What is published stays as it is through everything that happens but a call that succeeds. -/
theorem next_keeps (h : s.Sound) (hquiet : a = .fill → ¬s.Succeeds) :
    (s.next a).client.tables = s.client.tables ∧
      Keeps s.store.length s.store (s.next a).store := by
  cases a with
  | fill =>
    rcases call_cases h with ⟨-, hclient, hkeeps⟩ | ⟨hsucceeds, -⟩
    · exact ⟨congrArg Client.tables hclient, hkeeps⟩
    · exact absurd hsucceeds (hquiet rfl)
  | add duplicates r => exact ⟨rfl, .refl _ _⟩
  | standIn symbols => exact ⟨rfl, (Opened.ofSymbols_fresh true s.store symbols).1⟩
  | offer symbol =>
    unfold next
    cases s.supply with
    | standIn l => exact ⟨rfl, keeps_append _ _⟩
    | files tree images => exact ⟨rfl, .refl _ _⟩
  | withdraw symbol =>
    unfold next
    cases s.supply with
    | standIn l => exact ⟨rfl, .refl _ _⟩
    | files tree images => exact ⟨rfl, .refl _ _⟩
  | lay tree images => exact ⟨rfl, .refl _ _⟩

/-- The library that stands in afterwards has its functions in the store, and they take any types.
-/
theorem Sound.standIn_next (h : s.Sound) (a : Act) :
    ∀ l, (s.next a).supply = .standIn l →
      l.acceptsVoid = true ∧ l.Within 0 (s.next a).store.length := by
  intro l hl
  cases a with
  | fill =>
    obtain ⟨haccepts, hwithin⟩ := h.standIn l hl
    refine ⟨haccepts, hwithin.mono (Nat.le_refl _) ?_⟩
    rcases call_cases h with ⟨-, -, hkeeps⟩ | ⟨-, -, hlength, -⟩
    · exact hkeeps.length_le
    · exact hlength
  | add duplicates r => exact h.standIn l hl
  | standIn symbols =>
    obtain rfl := Supply.standIn.inj hl
    obtain ⟨-, hwithin⟩ := Opened.ofSymbols_fresh true s.store symbols
    exact ⟨acceptsVoid_ofSymbols true s.store symbols,
      hwithin.mono (Nat.zero_le _) (Nat.le_refl _)⟩
  | offer symbol =>
    unfold next at hl ⊢
    cases hsupply : s.supply with
    | standIn old =>
      rw [hsupply] at hl
      obtain rfl := Supply.standIn.inj hl
      obtain ⟨haccepts, hwithin⟩ := h.standIn old hsupply
      exact ⟨haccepts, hwithin.add (Nat.zero_le _) symbol⟩
    | files tree images =>
      rw [hsupply] at hl
      exact nomatch hsupply.symm.trans hl
  | withdraw symbol =>
    unfold next at hl ⊢
    cases hsupply : s.supply with
    | standIn old =>
      rw [hsupply] at hl
      obtain rfl := Supply.standIn.inj hl
      obtain ⟨haccepts, hwithin⟩ := h.standIn old hsupply
      exact ⟨haccepts, hwithin.drop symbol⟩
    | files tree images =>
      rw [hsupply] at hl
      exact nomatch hsupply.symm.trans hl
  | lay tree images => exact nomatch hl

/-- A session stays sound. -/
theorem Sound.next (h : s.Sound) (a : Act) : (s.next a).Sound := by
  refine ⟨fun tables htables entry hentry slot hslot place hplace => ?_, h.standIn_next a⟩
  by_cases hquiet : a = .fill → ¬s.Succeeds
  · obtain ⟨hsame, hkeeps⟩ := next_keeps h hquiet
    have hold := h.published tables (hsame.symm.trans htables) entry hentry slot hslot place hplace
    exact Nat.lt_of_lt_of_le hold hkeeps.length_le
  · push Not at hquiet
    obtain ⟨rfl, hsucceeds⟩ := hquiet
    rcases call_cases h with ⟨hfails, -⟩ | ⟨-, -, -, l, new, hclient, hwithin, hfits⟩
    · exact absurd hsucceeds hfails
    · have hnew : new = tables :=
        Option.some.inj ((congrArg Client.tables hclient).symm.trans htables)
      subst hnew
      obtain ⟨i, hi, rfl⟩ := List.getElem_of_mem hentry
      have hfit := hfits.get (i := i) (by rw [hfits.length_eq]; exact hi) hi
      obtain ⟨symbol, hsymbol⟩ := hfit.resolved slot hslot place hplace
      exact (hwithin symbol place hsymbol).2

/-- Nothing that happens changes which function is mandatory. -/
theorem sentinel_next (h : s.Sound) (a : Act) :
    (s.next a).client.sentinel = s.client.sentinel := by
  cases a with
  | fill =>
    unfold next
    rcases call_cases h with ⟨-, hclient, -⟩ | ⟨-, -, -, l, tables, hclient, -⟩
    · rw [hclient]
    · rw [hclient]
  | add duplicates r => rfl
  | standIn symbols => rfl
  | offer symbol =>
    unfold next
    cases s.supply <;> rfl
  | withdraw symbol =>
    unfold next
    cases s.supply <;> rfl
  | lay tree images => rfl

/-- The same tables show the same as long as their functions are left alone. -/
theorem shown_eq_of_keeps (h : s.Sound) (htables : s'.client.tables = s.client.tables)
    (hkeeps : Keeps s.store.length s.store s'.store) : s'.shown = s.shown := by
  unfold shown
  rw [htables]
  cases hpublished : s.client.tables with
  | none => rfl
  | some tables =>
    rw [Option.map_some, Option.map_some, Option.some.injEq]
    refine List.map_congr_left fun entry hentry => ?_
    refine Prod.ext rfl (List.map_congr_left fun slot hslot => Prod.ext rfl ?_)
    refine Option.bind_congr fun place hplace => ?_
    exact hkeeps.same place (h.published tables hpublished entry hentry slot hslot place hplace)

/-- No call succeeds while some things happen. -/
def Quiet (s : Session) (acts : List Act) : Prop :=
  ∀ before after, acts = before ++ .fill :: after → ¬(s.run before).Succeeds

/-- The first thing that happens is no call that succeeds, and none follows. -/
theorem Quiet.of_cons (h : s.Quiet (a :: acts)) :
    (a = .fill → ¬s.Succeeds) ∧ (s.next a).Quiet acts := by
  refine ⟨fun ha => h [] acts (by rw [ha, List.nil_append]), fun before after hacts => ?_⟩
  exact h (a :: before) after (by rw [hacts, List.cons_append])

/-- A session stays sound whatever happens. -/
theorem Sound.run (h : s.Sound) (acts : List Act) : (s.run acts).Sound := by
  induction acts generalizing s with
  | nil => exact h
  | cons a acts ih => exact ih (h.next a)

/-- Whatever happens, a client looks for the same mandatory function. -/
theorem sentinel_run (h : s.Sound) (acts : List Act) :
    (s.run acts).client.sentinel = s.client.sentinel := by
  induction acts generalizing s with
  | nil => rfl
  | cons a acts ih => exact (ih (h.next a)).trans (sentinel_next h a)

/-- What is published stays as it is until a call succeeds. -/
theorem Quiet.run (hquiet : s.Quiet acts) (h : s.Sound) :
    (s.run acts).client.tables = s.client.tables ∧ (s.run acts).shown = s.shown := by
  induction acts generalizing s with
  | nil => exact ⟨rfl, rfl⟩
  | cons a acts ih =>
    obtain ⟨hfirst, hrest⟩ := hquiet.of_cons
    obtain ⟨htables, hkeeps⟩ := next_keeps h hfirst
    obtain ⟨htables', hshown'⟩ := ih hrest (h.next a)
    exact ⟨htables'.trans htables, hshown'.trans (shown_eq_of_keeps h htables hkeeps)⟩

/-- A session is sound at its beginning. -/
theorem sound_start (surface : Surface) (path : Path) (sentinel : Header.Slot) (tree : FileTree)
    (images : Images) : (start surface path sentinel tree images).Sound :=
  ⟨fun _ htables => (nomatch htables), fun _ hl => nomatch hl⟩

/-- Tables that fit a surface have its groups and names, in order. -/
theorem layout_of_fits {l : Opened} {sections : List (String × List Record)}
    {tables : List (String × Table)} (h : List.Forall₂ (Client.Fits l) sections tables) :
    tables.map (fun entry => (entry.1, entry.2.group, entry.2.names)) =
      sections.map fun g => (g.1, g.1, g.2.map Record.name) := by
  induction h with
  | nil => rfl
  | cons hfits _ ih =>
    rw [List.map_cons, List.map_cons, ih, hfits.filed, hfits.group, hfits.names]

/-- A client publishes whole tables or nothing, whatever happens. Before a call succeeds there are
no tables. After the last call that did, there are those that it built, with the groups and names
of the surface as it was then, and they show what they showed then. A call succeeds only if the
library opens and exports the mandatory function. One that does not succeed, be it that it reports
so or that it is refused in between, leaves what is published as it is. This rests on the assumption
that a library which stands in for the loader has functions that take any types, so that no call
with it is refused in between. From files calls may be refused, but each has functions of its own,
and what it has set on them so far shows in no table that is published. -/
theorem publishes_whole_tables (surface : Surface) (path : Path) (sentinel : Header.Slot)
    (tree : FileTree) (images : Images) (acts : List Act) :
    let fresh := start surface path sentinel tree images
    let now := fresh.run acts
    (fresh.Quiet acts → now.client.tables = none) ∧
    (∀ before after, acts = before ++ .fill :: after → (fresh.run before).Succeeds →
      ((fresh.run before).next .fill).Quiet after →
      now.client.tables = (fresh.run before).call.client.tables ∧
      now.shown = ((fresh.run before).next .fill).shown ∧
      ∃ tables, now.client.tables = some tables ∧
        tables.map (fun entry => (entry.1, entry.2.group, entry.2.names)) =
          (fresh.run before).client.surface.sections.map
            fun g => (g.1, g.1, g.2.map Record.name)) ∧
    (now.Succeeds →
      (∀ r, now.client.surface.get? sentinel.group sentinel.name = some r →
        now.Exports r.symbol) ∧
      (now.client.surface.get? sentinel.group sentinel.name = none →
        now.Exports (sentinel.group ++ "_" ++ sentinel.name))) ∧
    (¬now.Succeeds →
      (now.next .fill).client = now.client ∧ (now.next .fill).shown = now.shown) := by
  intro fresh now
  have hfresh : fresh.Sound := sound_start surface path sentinel tree images
  have hnow : now.Sound := hfresh.run acts
  refine ⟨fun hquiet => (hquiet.run hfresh).1, ?_, ?_, ?_⟩
  · intro before after hacts hsucceeds hquiet
    have hthen := hfresh.run before
    have hrun : now = ((fresh.run before).next .fill).run after := by
      simp only [now, hacts, run, List.foldl_append, List.foldl_cons]
    obtain ⟨htables, hshown⟩ := hquiet.run (hthen.next .fill)
    rw [← hrun] at htables hshown
    refine ⟨htables, hshown, ?_⟩
    rcases call_cases hthen with ⟨hfails, -⟩ | ⟨-, -, -, l, tables, hclient, -, hfits⟩
    · exact absurd hsucceeds hfails
    · exact ⟨tables, htables.trans (congrArg Client.tables hclient), layout_of_fits hfits⟩
  · intro hsucceeds
    have hsentinel : now.client.sentinel = sentinel := sentinel_run hfresh acts
    rcases call_cases hnow with ⟨hfails, -⟩ | ⟨-, hexports, -⟩
    · exact absurd hsucceeds hfails
    · unfold Client.sentinelSymbol at hexports
      rw [hsentinel] at hexports
      constructor
      · intro r hr
        rwa [hr] at hexports
      · intro hnone
        rwa [hnone] at hexports
  · intro hfails
    rcases call_cases hnow with ⟨-, hclient, hkeeps⟩ | ⟨hsucceeds, -⟩
    · exact ⟨hclient, shown_eq_of_keeps hnow (congrArg Client.tables hclient) hkeeps⟩
    · exact absurd hsucceeds hfails

end Session

end Bindery.Library
