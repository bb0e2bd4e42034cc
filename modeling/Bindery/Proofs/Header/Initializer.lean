import Bindery.Proofs.Header.Reading
import Bindery.Proofs.Surface

/-!
# What an initializer does

With the library open, the program of an initializer binds the mandatory function first and stops
if it is missing. Otherwise it assigns the field of every function, to what its symbol gives. The
lines of the program, read as they are written, do the same.
-/

namespace Bindery.Header

/-- Lines are passed over. -/
theorem run_map_line (opens : Bool) (exported : String → Bool) (fields : Fields)
    (texts : List String) (rest : List Statement) :
    run opens exported fields (texts.map .line ++ rest) = run opens exported fields rest := by
  induction texts with
  | nil => rfl
  | cons text texts ih => exact ih

/-- A statement does what its lines say. -/
theorem run_spelled (opens : Bool) (exported : String → Bool) (fields : Fields)
    (statements : List Statement) :
    run opens exported fields (statements.flatMap Statement.spelled) =
      run opens exported fields statements := by
  induction statements generalizing fields with
  | nil => rfl
  | cons s statements ih =>
    rw [List.flatMap_cons]
    cases s with
    | openLibrary name =>
      rw [Statement.spelled, run_map_line, ih]
      rfl
    | line text => exact ih fields
    | requireLibrary =>
      simp only [Statement.spelled, List.singleton_append, run, ih]
    | bind slot cast symbol => exact ih _
    | requireSlot slot =>
      simp only [Statement.spelled, List.singleton_append, run, ih]
    | succeed => rfl

/-- What a look-up of a symbol gives. -/
def address (exported : String → Bool) (symbol : String) : Option String :=
  if exported symbol then some symbol else none

/-- What the bindings of a surface assign, in order. -/
def assignments (exported : String → Bool) (s : Surface) : Fields :=
  s.sections.flatMap fun (group, records) =>
    records.map fun r => (⟨group, r.name⟩, address exported r.symbol)

/-- Bindings of one group assign what was looked up. -/
theorem run_bindFunctions (exported : String → Bool) (group : String) (fields : Fields)
    (records : List Record) (rest : List Statement) :
    run true exported fields
        (records.map (fun r => bindFunction group r.name r.symbol) ++ rest) =
      run true exported (Keyed.putAll fields
        (records.map fun r => (⟨group, r.name⟩, address exported r.symbol))) rest := by
  induction records generalizing fields with
  | nil => rfl
  | cons r records ih => exact ih _

/-- The bindings of a surface assign what was looked up. -/
theorem run_bindAll (exported : String → Bool) (s : Surface) (fields : Fields)
    (rest : List Statement) :
    run true exported fields (bindAll s ++ rest) =
      run true exported (Keyed.putAll fields (assignments exported s)) rest := by
  unfold bindAll assignments
  induction s.sections generalizing fields with
  | nil => rfl
  | cons g groups ih =>
    obtain ⟨group, records⟩ := g
    rw [List.flatMap_cons, List.flatMap_cons, Keyed.putAll_append, ← ih, List.append_assoc,
      ← run_bindFunctions, List.append_assoc]
    rfl

/-- With the library open, the program succeeds exactly if the mandatory function is exported.
Otherwise it has assigned nothing but the field of that function. -/
theorem run_program (exported : String → Bool) (s : Surface) (library : String) (sentinel : Slot)
    (symbol : String) :
    run true exported [] (program s library sentinel symbol) =
      if exported symbol then
        (some true, Keyed.putAll [(sentinel, some symbol)] (assignments exported s))
      else (some false, [(sentinel, none)]) := by
  unfold program
  rw [List.append_assoc]
  simp only [List.cons_append, List.nil_append, bindFunction, run, if_true, Keyed.put]
  cases exported symbol with
  | false => simp [Keyed.get?]
  | true =>
    simp only [if_true, Keyed.get?]
    rw [run_bindAll]
    rfl

/-- A binding of identifiers is legible. -/
theorem legible_bindFunction {group name symbol : String} (hg : isIdentifier group = true)
    (hn : isIdentifier name = true) (hs : isIdentifier symbol = true) :
    (bindFunction group name symbol).Legible :=
  ⟨hg, hn, paren_not_mem_functionType hg hn, hs⟩

/-- The bindings of a surface of identifiers are legible. -/
theorem legible_bindAll {s : Surface} (h : ∀ g ∈ s.sections, ∀ r ∈ g.2,
      isIdentifier g.1 = true ∧ isIdentifier r.name = true ∧ isIdentifier r.symbol = true) :
    ∀ st ∈ bindAll s, st.Legible := by
  intro st hst
  obtain ⟨⟨group, records⟩, hgroup, hmem⟩ := List.mem_flatMap.mp hst
  rcases List.mem_append.mp hmem with htitle | hbind
  · simp only [List.mem_cons, List.not_mem_nil, or_false] at htitle
    rcases htitle with rfl | rfl
    · exact .inl rfl
    · exact .inr (by simp)
  · obtain ⟨r, hr, rfl⟩ := List.mem_map.mp hbind
    obtain ⟨hg, hn, hs⟩ := h _ hgroup r hr
    exact legible_bindFunction hg hn hs

/-- The program of a surface of identifiers is legible. -/
theorem legible_program {s : Surface} {library : String} {sentinel : Slot} {symbol : String}
    (hsentinel : (bindFunction sentinel.group sentinel.name symbol).Legible)
    (hall : ∀ st ∈ bindAll s, st.Legible) :
    ∀ st ∈ program s library sentinel symbol, st.Legible := by
  have hfirst : ∀ st ∈ [Statement.openLibrary library, .line "",
      .line "    // Check if library was loaded successfully", .requireLibrary, .line "",
      .line "    // Verify one of the core C apis is available",
      bindFunction sentinel.group sentinel.name symbol, .line "", .requireSlot sentinel],
      st.Legible := by
    have hslot : (Statement.requireSlot sentinel).Legible := ⟨hsentinel.1, hsentinel.2.1⟩
    simp only [List.forall_mem_cons]
    refine ⟨trivial, .inl rfl, .inr (by decide), trivial, .inl rfl, .inr (by decide), hsentinel,
      .inl rfl, hslot, by simp⟩
  have hlast : ∀ st ∈ [Statement.line "", .succeed], st.Legible := by
    simp only [List.forall_mem_cons]
    exact ⟨.inl rfl, trivial, by simp⟩
  unfold program
  exact List.forall_mem_append.mpr ⟨List.forall_mem_append.mpr ⟨hfirst, hall⟩, hlast⟩

/-- The slot of a record. -/
def slotOf (r : Record) : Slot := ⟨r.group, r.name⟩

/-- The bindings of a well-formed surface assign each record's slot what its symbol gives. -/
theorem mem_assignments_iff {exported : String → Bool} {s : Surface} (h : s.WellFormed)
    {slot : Slot} {found : Option String} :
    (slot, found) ∈ assignments exported s ↔
      ∃ r ∈ s.toList, slot = slotOf r ∧ found = address exported r.symbol := by
  unfold assignments
  rw [List.mem_flatMap]
  constructor
  · rintro ⟨g, hg, hmem⟩
    obtain ⟨r, hr, heq⟩ := List.mem_map.mp hmem
    obtain ⟨rfl, rfl⟩ := Prod.mk.inj heq
    refine ⟨r, Surface.mem_toList_iff_sections.mpr ⟨g, hg, hr⟩, ?_, rfl⟩
    rw [slotOf, h.group_eq hg hr]
  · rintro ⟨r, hr, rfl, rfl⟩
    obtain ⟨g, hg, hmem⟩ := Surface.mem_toList_iff_sections.mp hr
    refine ⟨g, hg, List.mem_map.mpr ⟨r, hmem, ?_⟩⟩
    rw [slotOf, h.group_eq hg hmem]

/-- After the bindings of a well-formed surface every record's field holds what its symbol gives,
whatever was assigned before. -/
theorem get?_putAll_assignments {exported : String → Bool} {s : Surface} (h : s.WellFormed)
    {r : Record} (hr : r ∈ s.toList) (fields : Fields) :
    Keyed.get? (slotOf r) (Keyed.putAll fields (assignments exported s)) =
      some (address exported r.symbol) := by
  have hmem : (slotOf r, address exported r.symbol) ∈ assignments exported s :=
    (mem_assignments_iff h).mpr ⟨r, hr, rfl, rfl⟩
  refine Keyed.get?_putAll_of_mem hmem ?_ fields
  intro found hfound
  obtain ⟨q, hq, hslot, rfl⟩ := (mem_assignments_iff h).mp hfound
  have hkey : q.key = r.key := by
    obtain ⟨hgroup, hname⟩ := Slot.mk.inj hslot
    rw [Record.key, Record.key, hgroup, hname]
  rw [h.eq_of_key_eq hr hq hkey]

/-- The lines of the initializer of a well-formed surface of identifiers are read as a program.
With the library open, it fails after the field of the mandatory function if this is missing, and
otherwise assigns all fields and succeeds. -/
theorem exists_read_initializer {s : Surface} (h : s.WellFormed) {sentinel : Slot} {q : Record}
    (hq : s.get? sentinel.group sentinel.name = some q)
    (hnames : ∀ r ∈ s.toList, isIdentifier r.group = true ∧ isIdentifier r.name = true ∧
      isIdentifier r.symbol = true) (library : String) (exported : String → Bool) :
    ∃ statements read, initializer s library sentinel = .ok statements ∧
      readFunction? (functionLines statements) = some read ∧
      run true exported [] read =
        if exported q.symbol then
          (some true, Keyed.putAll [(sentinel, some q.symbol)] (assignments exported s))
        else (some false, [(sentinel, none)]) := by
  obtain ⟨hmem, hkey⟩ := h.get?_eq_some_iff.mp hq
  obtain ⟨hgroup, hname⟩ := Prod.mk.inj hkey
  have hsections : ∀ g ∈ s.sections, ∀ r ∈ g.2, isIdentifier g.1 = true ∧
      isIdentifier r.name = true ∧ isIdentifier r.symbol = true := by
    intro g hg r hr
    rw [← h.group_eq hg hr]
    exact hnames r (Surface.mem_toList_iff_sections.mpr ⟨g, hg, hr⟩)
  have hsentinel : (bindFunction sentinel.group sentinel.name q.symbol).Legible := by
    obtain ⟨hg, hn, hs⟩ := hnames q hmem
    rw [hgroup] at hg
    rw [hname] at hn
    exact legible_bindFunction hg hn hs
  have hlegible : ∀ st ∈ program s library sentinel q.symbol, st.Legible :=
    legible_program hsentinel (legible_bindAll hsections)
  refine ⟨program s library sentinel q.symbol, _, ?_, readFunction?_functionLines hlegible, ?_⟩
  · rw [initializer, hq]
  · rw [run_spelled, run_program]

end Bindery.Header
