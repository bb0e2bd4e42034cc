import Bindery.Proofs.Header.Initializer
import Bindery.Proofs.Library.Binding

/-!
# The initializer and the client agree

The initializer of the header and a client bind the same surface by one contract, one as a text for
a compiler and one as a run over the open library. They are compared on every library that opens.
They agree on success, on the fields that stay empty, and on the slots, except where a client comes
upon a parameter of type `void` in a function that it would otherwise bind: this ends the filling
with a failure, while the compiled program goes on.
-/

namespace Bindery.Library.Client

open Header

/-- The symbol that is looked for under an identifier is the identifier. -/
theorem symbolOf_of_isIdentifier {s : String} (h : isIdentifier s = true) : symbolOf s = s := by
  have hnull : '\x00' ∉ s.toList := not_mem_of_isIdentifier h (by decide)
  have hall : s.toList.takeWhile (· ≠ '\x00') = s.toList := by
    rw [List.takeWhile_eq_self_iff]
    intro c hc
    have hne : c ≠ '\x00' := fun heq => hnull (heq ▸ hc)
    simpa using hne
  rw [symbolOf, hall, String.ofList_toList]

/-- The mandatory symbol is that of the record under the mandatory name. -/
theorem sentinelSymbol_of_get? {c : Client} {q : Record}
    (h : c.surface.get? c.sentinel.group c.sentinel.name = some q) :
    c.sentinelSymbol = q.symbol := by
  rw [sentinelSymbol, h]

/-- A client looks for the symbols of its surface. -/
theorem symbol_mem_names {c : Client} {r : Record} (h : r ∈ c.surface.toList) :
    r.symbol ∈ c.names := List.mem_cons_of_mem _ (List.mem_map_of_mem h)

/-- A client comes upon a function that it has to refuse: one that is exported, with known types,
and with a parameter of type `void`. -/
def Refused (c : Client) (symbols : List String) : Prop :=
  ∃ r ∈ c.surface.toList, r.symbol ∈ symbols ∧ r.Mapped ∧ r.TakesVoid

/-- Connecting a client of identifiers is filling it from a library that has, of the symbols of the
surface, those that are exported, and that refuses a record exactly if the client has to. -/
theorem exists_fill_of_isIdentifier {c : Client} {t : FileTree} {images : Images}
    {symbols : List String} (hopen : openImage t images c.path = .ok symbols)
    (hsymbols : ∀ r ∈ c.surface.toList, isIdentifier r.symbol = true) (store : Store) :
    ∃ l store', c.connect t images store = c.fill store' (.ok l) ∧
      (∀ r ∈ c.surface.toList, ((l.resolve r.symbol).isSome = true ↔ r.symbol ∈ symbols)) ∧
      ((∀ r ∈ c.surface.toList, ¬l.Refuses r) ↔ ¬c.Refused symbols) := by
  obtain ⟨l, store', hfill, haccepts, hlibrary⟩ := exists_fill_of_openImage hopen store
  have hexports : ∀ r ∈ c.surface.toList,
      ((l.resolve r.symbol).isSome = true ↔ r.symbol ∈ symbols) := by
    intro r hr
    have hname := hlibrary r.symbol (symbol_mem_names hr)
    rwa [symbolOf_of_isIdentifier (hsymbols r hr)] at hname
  refine ⟨l, store', hfill, hexports, ?_⟩
  have hrefuses : ∀ r ∈ c.surface.toList,
      (l.Refuses r ↔ r.symbol ∈ symbols ∧ r.Mapped ∧ r.TakesVoid) := by
    intro r hr
    rw [Opened.Refuses, hexports r hr]
    exact and_iff_right haccepts
  constructor
  · rintro hnone ⟨r, hr, hrefused⟩
    exact hnone r hr ((hrefuses r hr).mpr hrefused)
  · intro hnot r hr hrefused
    exact hnot ⟨r, hr, (hrefuses r hr).mp hrefused⟩

/-- A program in lines and a filling of a client do the same with a library that exports some
symbols, as far as the client does not come upon a function that it has to refuse. -/
structure SameContract (c : Client) (symbols : List String) (lines : List String) (loaded : Bool)
    (fields : Fields) (filled : Filled) : Prop where
  /-- The lines are a program that returns, with the library open, and leaves the fields so. -/
  returns : ∃ read, readFunction? lines = some read ∧
    run true symbols.contains [] read = (some loaded, fields)
  /-- Without success nothing is assigned but the mandatory field, and that is empty. -/
  fields_of_not_loaded : loaded = false → fields = [(c.sentinel, none)]
  /-- With success the field of every record is assigned, and it is empty exactly if the symbol is
  not exported. -/
  fields_of_loaded : loaded = true → ∀ r ∈ c.surface.toList, ∃ value,
    Keyed.get? (slotOf r) fields = some value ∧ (value = none ↔ r.symbol ∉ symbols)
  /-- The client returns the same. -/
  result_eq : ¬(loaded = true ∧ c.Refused symbols) → filled.report.result = .ok loaded
  /-- A client that has to refuse a function fails where the program succeeds. -/
  refusal : loaded = true ∧ c.Refused symbols → ∃ v, filled.report.result = .error v
  /-- With success the client has a slot for every record, and it is empty exactly if the field is
  empty or a type is unknown. -/
  slots_of_loaded : filled.report.result = .ok true → ∀ r ∈ c.surface.toList,
    ∃ table slot, filled.client.table r.group = .ok table ∧ table.getItem r.name = .ok slot ∧
      (slot = none ↔ Keyed.get? (slotOf r) fields = some none ∨ ¬r.Mapped)

/-- On a library that opens, the lines of the initializer are a program with the same success as
the client, and with the same empty slots, unless the client has to refuse a function. -/
theorem initializer_agrees_with_connect {c : Client} {duplicates : Duplicates}
    {records : List Record} {t : FileTree} {images : Images} {symbols : List String}
    (library : String) (store : Store)
    (hsurface : (Surface.empty.addAll duplicates records).result = .ok c.surface)
    (hsentinel : c.surface.contains c.sentinel.group c.sentinel.name = true)
    (hnames : ∀ r ∈ c.surface.toList, isIdentifier r.group = true ∧
      isIdentifier r.name = true ∧ isIdentifier r.symbol = true)
    (hopen : openImage t images c.path = .ok symbols) :
    ∃ statements loaded fields, initializer c.surface library c.sentinel = .ok statements ∧
      SameContract c symbols (functionLines statements) loaded fields
        (c.connect t images store) := by
  have hwf : c.surface.WellFormed := Surface.WellFormed.empty.addAll hsurface
  obtain ⟨q, hq⟩ := Option.isSome_iff_exists.mp hsentinel
  have hqmem : q ∈ c.surface.toList := (hwf.get?_eq_some_iff.mp hq).1
  have hqsymbol : c.sentinelSymbol = q.symbol := sentinelSymbol_of_get? hq
  obtain ⟨l, store', hfill, hexports, hrefuses⟩ :=
    exists_fill_of_isIdentifier hopen (fun r hr => (hnames r hr).2.2) store
  obtain ⟨statements, read, hstatements, hread, hrun⟩ :=
    exists_read_initializer hwf hq hnames library symbols.contains
  rw [hfill]
  by_cases hloaded : q.symbol ∈ symbols
  · have hresolve : l.resolve c.sentinelSymbol ≠ none := by
      rw [hqsymbol, ← Option.isSome_iff_ne_none]
      exact (hexports q hqmem).mpr hloaded
    obtain ⟨hsucceeds, hnotFalse, hslots⟩ := fill_of_resolve_ne_none hresolve hwf store'
    rw [if_pos (by simpa using hloaded)] at hrun
    have hfield : ∀ r ∈ c.surface.toList,
        Keyed.get? (slotOf r) (Keyed.putAll [(c.sentinel, some q.symbol)]
          (assignments symbols.contains c.surface)) = some (address symbols.contains r.symbol) :=
      fun r hr => get?_putAll_assignments hwf hr _
    have haddress : ∀ symbol, address symbols.contains symbol = none ↔ symbol ∉ symbols := by
      simp [address]
    refine ⟨statements, true, _, hstatements, ⟨read, hread, hrun⟩, by simp, ?_, ?_, ?_, ?_⟩
    · intro _ r hr
      exact ⟨_, hfield r hr, haddress r.symbol⟩
    · intro hnot
      rw [hsucceeds, hrefuses]
      simpa using hnot
    · rintro ⟨-, hrefused⟩
      cases hresult : (c.fill store' (.ok l)).report.result with
      | error v => exact ⟨v, rfl⟩
      | ok loaded =>
        cases loaded with
        | false => exact absurd hresult hnotFalse
        | true => exact absurd hrefused (hrefuses.mp (hsucceeds.mp hresult))
    · intro hok r hr
      obtain ⟨table, slot, htable, hslot, hof⟩ := hslots hok r hr
      refine ⟨table, slot, htable, hslot, ?_⟩
      have hempty : slot = none ↔ (l.resolve r.symbol).isSome = false ∨ ¬r.Mapped := hof
      rw [hempty, hfield r hr, Option.some.injEq, haddress, ← hexports r hr, Bool.not_eq_true]
  · have hresolve : l.resolve c.sentinelSymbol = none := by
      rw [hqsymbol, ← Option.not_isSome_iff_eq_none, hexports q hqmem]
      exact hloaded
    obtain ⟨hfalse, -⟩ := fill_of_resolve_eq_none hresolve store'
    rw [if_neg (by simpa using hloaded)] at hrun
    refine ⟨statements, false, _, hstatements, ⟨read, hread, hrun⟩, fun _ => rfl, by simp,
      fun _ => hfalse, by simp, fun hok => ?_⟩
    exact absurd (hfalse.symm.trans hok) (by simp)

/-- Two functions: one to be mandatory, and one that takes a parameter of some type. -/
def stubRecords (type : String) : List Record := [
  ⟨"Core", "TickCount", "uint32_t", [], "Core_TickCount", none⟩,
  ⟨"Actor", "Create", "int", [⟨type, "x"⟩], "Actor_Create", none⟩]

/-- A client of the two functions for the library of a small tree. -/
def stubClient (type : String) : Client where
  surface := (stubRecords type).foldl Surface.put Surface.empty
  path := ⟨.here, ["components", "$CAPI.so"]⟩
  sentinel := ⟨"Core", "TickCount"⟩

/-- The small tree. -/
def stubTree : FileTree :=
  ⟨[(["components"], .directory), (["components", "$CAPI.so"], .file [])], []⟩

/-- The symbols of the library of the small tree. -/
def stubSymbols : List String := ["Core_TickCount", "Actor_Create"]

/-- The library of the small tree. -/
def stubImages : Images := [(["components", "$CAPI.so"], stubSymbols)]

/-- The initializer and the client agree on the library with a parameter of type `int`. -/
theorem initializer_agrees_with_stub :
    (Surface.empty.addAll .replace (stubRecords "int")).result = .ok (stubClient "int").surface ∧
    ∃ statements loaded fields,
      initializer (stubClient "int").surface "$CAPI" (stubClient "int").sentinel =
        .ok statements ∧
      SameContract (stubClient "int") stubSymbols (functionLines statements) loaded fields
        ((stubClient "int").connect stubTree stubImages []) :=
  ⟨rfl, initializer_agrees_with_connect "$CAPI" []
    (rfl : (Surface.empty.addAll .replace (stubRecords "int")).result =
      .ok (stubClient "int").surface)
    (by decide) (by decide +kernel) (by decide +kernel)⟩

/-- With a parameter of type `void` the program succeeds on the library and the client fails. -/
theorem initializer_succeeds_where_connect_fails :
    (∃ statements read fields,
      initializer (stubClient "void").surface "$CAPI" (stubClient "void").sentinel =
        .ok statements ∧
      readFunction? (functionLines statements) = some read ∧
      run true stubSymbols.contains [] read = (some true, fields)) ∧
    openImage stubTree stubImages (stubClient "void").path = .ok stubSymbols ∧
    ((stubClient "void").connect stubTree stubImages []).report.result = .error ⟨1⟩ := by
  have hsurface : (Surface.empty.addAll .replace (stubRecords "void")).result =
      .ok (stubClient "void").surface := rfl
  have hnames : ∀ r ∈ (stubClient "void").surface.toList, isIdentifier r.group = true ∧
      isIdentifier r.name = true ∧ isIdentifier r.symbol = true := by decide +kernel
  have hget : (stubClient "void").surface.get? (stubClient "void").sentinel.group
      (stubClient "void").sentinel.name =
        some ⟨"Core", "TickCount", "uint32_t", [], "Core_TickCount", none⟩ := rfl
  obtain ⟨statements, read, hstatements, hread, hrun⟩ :=
    exists_read_initializer (Surface.WellFormed.empty.addAll hsurface) hget hnames "$CAPI"
      stubSymbols.contains
  exact ⟨⟨statements, read, _, hstatements, hread, hrun⟩, rfl, rfl⟩

end Bindery.Library.Client
