import Bindery.Proofs.Header.Definitions

/-!
# Legible headers

A header is legible if what its surface, its events and the name of its library put into it stands
in single lines, and the names that it makes of them are identifiers. Its declarations can then be
read back, and the lines of its initializer define nothing.
-/

namespace Bindery.Header

/-- A single line that defines nothing. -/
structure Quiet (line : String) : Prop where
  /-- It begins with no keyword. -/
  idle : Idle line
  /-- No line feed stands in it. -/
  inLine : '\n' ∉ line.toList

/-- A line that is given by its characters is quiet if these are. To take a fixed line in this way
saves decoding it. -/
theorem quiet_ofList {cs : List Char} (hhead : cs.head? ∉ [some 's', some 'e', some 't'])
    (hfeed : '\n' ∉ cs) : Quiet (String.ofList cs) := by
  refine ⟨idle_of_head ?_, ?_⟩
  · rwa [String.toList_ofList]
  · rwa [String.toList_ofList]

/-- A statement whose lines are single lines. -/
def Statement.Plain : Statement → Prop
  | .line text => Quiet text
  | .openLibrary name => '\n' ∉ name.toList
  | .bind slot cast symbol =>
    '\n' ∉ slot.text.toList ∧ '\n' ∉ cast.toList ∧ '\n' ∉ symbol.toList
  | .requireSlot slot => '\n' ∉ slot.text.toList
  | .requireLibrary | .succeed => True

/-- The lines of a test. -/
theorem quiet_guardLines {condition : String} (h : '\n' ∉ condition.toList) :
    ∀ line ∈ guardLines condition, Quiet line := by
  have hcheck : Quiet ("    if (!" ++ condition ++ ")") := by
    refine ⟨idle_of_head ?_, ?_⟩
    · simp
    · simp [h]
  simp only [guardLines, List.forall_mem_cons]
  exact ⟨hcheck, quiet_ofList (by decide) (by decide), quiet_ofList (by decide) (by decide),
    quiet_ofList (by decide) (by decide), by simp⟩

/-- The line that opens a library. -/
theorem quiet_openLine {name ending : String} (hname : '\n' ∉ name.toList)
    (hending : '\n' ∉ ending.toList) : Quiet (openLine name ending) := by
  constructor
  · obtain ⟨rest, hrest⟩ := openingFront_openLine name ending
    refine idle_of_head ?_
    rw [← hrest]
    simp
  · unfold openLine librarySpelling
    simp only [String.toList_append, List.mem_append, not_or, hname, hending]
    decide +kernel

/-- The lines of a statement define nothing. -/
theorem Statement.Plain.quiet {s : Statement} (h : s.Plain) : ∀ line ∈ s.lines, Quiet line := by
  cases s with
  | line text =>
    intro line hline
    rw [List.mem_singleton.mp hline]
    exact h
  | openLibrary name =>
    simp only [Statement.lines, windowsCheck, List.forall_mem_cons]
    exact ⟨quiet_ofList (by decide) (by decide), quiet_openLine h (by decide),
      quiet_ofList (by decide) (by decide), quiet_openLine h (by decide),
      quiet_ofList (by decide) (by decide), by simp⟩
  | requireLibrary => exact quiet_guardLines (by decide)
  | bind slot cast symbol =>
    obtain ⟨hslot, hcast, hsymbol⟩ := h
    intro line hline
    rw [List.mem_singleton.mp hline]
    exact ⟨idle_of_head (by simp), by simp [hslot, hcast, hsymbol]⟩
  | requireSlot slot => exact quiet_guardLines h
  | succeed =>
    simp only [Statement.lines, List.forall_mem_cons]
    exact ⟨quiet_ofList (by decide) (by decide), by simp⟩

/-- The statements of a program are plain if the names in them are. -/
theorem plain_program {s : Surface} {library symbol : String} {sentinel : Slot}
    (hlibrary : '\n' ∉ library.toList)
    (hsentinel : (bindFunction sentinel.group sentinel.name symbol).Plain)
    (hall : ∀ g ∈ s.sections, '\n' ∉ g.1.toList ∧
      ∀ r ∈ g.2, (bindFunction g.1 r.name r.symbol).Plain) :
    ∀ st ∈ program s library sentinel symbol, st.Plain := by
  have hblank : (Statement.line "").Plain := quiet_ofList (by decide) (by decide)
  have hfirst : ∀ st ∈ [Statement.openLibrary library, .line "",
      .line "    // Check if library was loaded successfully", .requireLibrary, .line "",
      .line "    // Verify one of the core C apis is available",
      bindFunction sentinel.group sentinel.name symbol, .line "", .requireSlot sentinel],
      st.Plain := by
    have hcheck : (Statement.line "    // Check if library was loaded successfully").Plain :=
      quiet_ofList (by decide) (by decide)
    have hverify : (Statement.line "    // Verify one of the core C apis is available").Plain :=
      quiet_ofList (by decide) (by decide)
    simp only [List.forall_mem_cons]
    exact ⟨hlibrary, hblank, hcheck, trivial, hblank, hverify, hsentinel, hblank, hsentinel.1,
      by simp⟩
  have hbind : ∀ st ∈ bindAll s, st.Plain := by
    intro st hst
    obtain ⟨g, hg, hmem⟩ := List.mem_flatMap.mp hst
    obtain ⟨hgroup, hrecords⟩ := hall g hg
    rcases List.mem_append.mp hmem with htitle | hrecord
    · simp only [List.mem_cons, List.not_mem_nil, or_false] at htitle
      rcases htitle with rfl | rfl
      · exact hblank
      · exact ⟨idle_of_head (by simp), by simp [hgroup]⟩
    · obtain ⟨r, hr, rfl⟩ := List.mem_map.mp hrecord
      exact hrecords r hr
  intro st hst
  rcases List.mem_append.mp hst with hmore | hlast
  · rcases List.mem_append.mp hmore with hmem | hmem
    · exact hfirst st hmem
    · exact hbind st hmem
  · simp only [List.mem_cons, List.not_mem_nil, or_false] at hlast
    rcases hlast with rfl | rfl
    · exact hblank
    · trivial

/-- The line that opens the initializer. It begins like no definition, though with the same
character. -/
theorem quiet_head : Quiet "static bool omp_initialize_capi(struct OMPAPI_t* ompapi) \x7b" :=
  ⟨by decide +kernel, by decide +kernel⟩

/-- The lines of an initializer of plain statements define nothing. -/
theorem quiet_functionLines {statements : List Statement} (h : ∀ s ∈ statements, s.Plain) :
    ∀ line ∈ functionLines statements, Quiet line := by
  intro line hline
  rcases List.mem_append.mp hline with hmore | hlast
  · rcases List.mem_append.mp hmore with hhead | hbody
    · simp only [List.mem_cons, List.not_mem_nil, or_false] at hhead
      rcases hhead with rfl | rfl
      · exact quiet_ofList (by decide) (by decide)
      · exact quiet_head
    · obtain ⟨s, hs, hmem⟩ := List.mem_flatMap.mp hbody
      exact (h s hs).quiet line hmem
  · rw [List.mem_singleton.mp hlast]
    exact quiet_ofList (by decide) (by decide)

/-- An identifier has no line feed. -/
theorem feed_not_mem_of_isIdentifier {s : String} (h : isIdentifier s = true) :
    '\n' ∉ s.toList := not_mem_of_isIdentifier h (by decide)

/-- An identifier with more characters of identifiers behind it is one. -/
theorem isIdentifier_append {s t : String} (hs : isIdentifier s = true)
    (ht : t.toList.all isWordChar = true) : isIdentifier (s ++ t) = true := by
  unfold isIdentifier at hs ⊢
  rw [String.toList_append]
  cases hcs : s.toList with
  | nil =>
    rw [hcs] at hs
    simp at hs
  | cons c cs =>
    rw [hcs] at hs
    simpa [ht] using hs

/-- The characters of an identifier. -/
theorem all_isWordChar_of_isIdentifier {s : String} (h : isIdentifier s = true) :
    s.toList.all isWordChar = true := by
  unfold isIdentifier at h
  rw [Bool.and_eq_true] at h
  exact h.2

/-- The tag of a table is an identifier. -/
theorem isIdentifier_tableTag {group : String} (h : isIdentifier group = true) :
    isIdentifier (tableTag group) = true := isIdentifier_append h (by decide)

/-- The name of a function's type is an identifier. -/
theorem isIdentifier_functionType {group name : String} (hg : isIdentifier group = true)
    (hn : isIdentifier name = true) : isIdentifier (functionType group name) = true :=
  isIdentifier_append (isIdentifier_append (isIdentifier_append hg (by decide))
    (all_isWordChar_of_isIdentifier hn)) (by decide)

/-- The tag of an event's argument struct is an identifier. -/
theorem isIdentifier_argumentsTag {event : String} (h : isIdentifier event = true) :
    isIdentifier (argumentsTag event) = true :=
  isIdentifier_append (by decide) (all_isWordChar_of_isIdentifier h)

/-- The name of an event's callback type is an identifier. -/
theorem isIdentifier_callbackType {event : String} (h : isIdentifier event = true) :
    isIdentifier (callbackType event) = true :=
  isIdentifier_append (by decide) (all_isWordChar_of_isIdentifier h)

/-- What a header takes over from the events and from the name of the library stands in single
lines. -/
structure InLines (e : EventSchema) (library : String) : Prop where
  /-- The names of components stand in lines. -/
  components : ∀ c ∈ e.components, '\n' ∉ c.1.toList
  /-- The arguments of events stand in lines. -/
  arguments : ∀ c ∈ e.components, ∀ event ∈ c.2, ∀ p ∈ event.arguments,
    '\n' ∉ p.type.toList ∧ '\n' ∉ p.name.toList
  /-- The name of the library stands in a line. -/
  library : '\n' ∉ library.toList

/-- A header that can be read back. -/
structure Legible (h : Header) : Prop where
  /-- The records are cut from lines. -/
  surface : h.surface.CutFromLines
  /-- Groups are identifiers. -/
  groups : ∀ group ∈ h.surface.groupNames, isIdentifier group = true
  /-- The names of functions are identifiers. -/
  names : ∀ r ∈ h.surface.toList, isIdentifier r.name = true
  /-- The kinds of game objects are the usual ones. -/
  entities : h.entities = entityTypes
  /-- The names of events are identifiers. -/
  events : ∀ event ∈ h.events.names, isIdentifier event = true
  /-- The rest stands in single lines. -/
  inLines : InLines h.events h.library

/-- A legible item whose lines are single lines. -/
structure Item.Plain (item : Item) : Prop where
  /-- It can be read back. -/
  legible : item.Legible
  /-- No line feed stands in its lines. -/
  inLines : ∀ line ∈ item.lines, '\n' ∉ line.toList

instance (item : Item) : Decidable item.Plain :=
  decidable_of_iff (item.Legible ∧ ∀ line ∈ item.lines, '\n' ∉ line.toList)
    ⟨fun h => ⟨h.1, h.2⟩, fun h => ⟨h.legible, h.inLines⟩⟩

/-- A quiet line is a plain item. -/
theorem Quiet.plain {text : String} (h : Quiet text) : (Item.line text).Plain := by
  refine ⟨h.idle, fun line hline => ?_⟩
  rw [List.mem_singleton.mp hline]
  exact h.inLine

/-- The fixed parts of a header are plain. -/
theorem plain_preamble : ∀ item ∈ preamble, item.Plain := by
  simp only [preamble, windowsCheck, List.forall_mem_cons]
  repeat' apply And.intro
  all_goals first
    | exact (quiet_ofList (by decide) (by decide)).plain
    | decide +kernel

/-- A comment that announces something. -/
theorem plain_comment {subject : String} (h : '\n' ∉ subject.toList) {rest : String}
    (hrest : '\n' ∉ rest.toList) : (Item.line ("// " ++ subject ++ rest)).Plain := by
  refine Quiet.plain ⟨idle_of_head ?_, ?_⟩
  · simp
  · simp [h, hrest]

/-- The blank line. -/
theorem plain_blank : (Item.line "").Plain := (quiet_ofList (by decide) (by decide)).plain

/-- The name of a pointer to a function. -/
theorem plain_function {name returns parameters : String} (hname : isIdentifier name = true)
    (hreturns : '(' ∉ returns.toList) (hline : '\n' ∉ returns.toList)
    (hparameters : '\n' ∉ parameters.toList) :
    (Item.function name returns parameters).Plain := by
  refine ⟨⟨hname, hreturns⟩, fun line hmem => ?_⟩
  rw [List.mem_singleton.mp hmem]
  simp [hline, hparameters, feed_not_mem_of_isIdentifier hname]

/-- A struct of named fields. -/
theorem plain_table {tag : String} (htag : isIdentifier tag = true) {fields : List Field}
    (hfields : ∀ f ∈ fields, '\n' ∉ f.type.toList ∧ '\n' ∉ f.name.toList) :
    (Item.table tag fields).Plain := by
  refine ⟨htag, fun line hline => ?_⟩
  simp only [Item.lines, List.mem_append, List.mem_map, List.mem_singleton] at hline
  rcases hline with (rfl | ⟨f, hf, rfl⟩) | rfl
  · simp [feed_not_mem_of_isIdentifier htag]
  · simp [hfields f hf]
  · decide

/-- A struct for the arguments of an event. -/
theorem plain_arguments {tag : String} (htag : isIdentifier tag = true) {fields : List Field}
    (hfields : ∀ f ∈ fields, '\n' ∉ f.type.toList ∧ '\n' ∉ f.name.toList) :
    (Item.arguments tag fields).Plain := by
  refine ⟨htag, fun line hline => ?_⟩
  rcases List.mem_append.mp hline with hmore | hlast
  · rcases List.mem_append.mp hmore with hfirst | hfield
    · simp only [List.mem_cons, List.not_mem_nil, or_false] at hfirst
      rcases hfirst with rfl | rfl | rfl
      · simp [feed_not_mem_of_isIdentifier htag]
      · decide
      · decide
    · split at hfield
      · rw [List.mem_singleton.mp hfield]
        decide
      · obtain ⟨f, hf, rfl⟩ := List.mem_map.mp hfield
        simp [hfields f hf]
  · have hfixed : ∀ line ∈ ["    \x7d *list;", "\x7d;"], '\n' ∉ line.toList := by decide
    exact hfixed line hlast

/-- Parameters that stand in lines are written in a line. -/
theorem feed_not_mem_renderParameters {ps : List Parameter}
    (h : ∀ p ∈ ps, '\n' ∉ p.type.toList ∧ '\n' ∉ p.name.toList) :
    '\n' ∉ (Signature.renderParameters ps).toList := by
  unfold Signature.renderParameters
  rw [String.toList_intercalate]
  induction ps with
  | nil => simp
  | cons p ps ih =>
    obtain ⟨hp, hps⟩ := List.forall_mem_cons.mp h
    have htext : '\n' ∉ p.text.toList := by simp [Parameter.text, hp]
    cases ps with
    | nil => simpa using htext
    | cons next ps =>
      have hrest := ih hps
      simp only [List.map_cons] at hrest ⊢
      rw [List.intercalate_cons_cons]
      simp only [List.mem_append, not_or]
      exact ⟨⟨htext, by decide⟩, hrest⟩

/-- The function types of a legible header are plain. -/
theorem Legible.functionTypes {h : Header} (hh : h.Legible) :
    ∀ item ∈ functionTypes h.surface, item.Plain := by
  intro item hitem
  obtain ⟨⟨group, records⟩, hg, hmem⟩ := List.mem_flatMap.mp hitem
  have hgroup : isIdentifier group = true :=
    hh.groups group (Surface.mem_groupNames_of_mem_sections hg)
  rcases List.mem_append.mp hmem with htitle | hfunction
  · simp only [List.mem_cons, List.not_mem_nil, or_false] at htitle
    rcases htitle with rfl | rfl | rfl
    · exact plain_blank
    · exact plain_blank
    · exact plain_comment (feed_not_mem_of_isIdentifier hgroup) (by decide)
  · obtain ⟨r, hr, rfl⟩ := List.mem_map.mp hfunction
    have hmem : r ∈ h.surface.toList := Surface.mem_toList_iff_sections.mpr ⟨_, hg, hr⟩
    have hcut := hh.surface.records r hmem
    exact plain_function (isIdentifier_functionType hgroup (hh.names r hmem)) hcut.returns_cut
      hcut.returns_line (feed_not_mem_renderParameters hcut.parameters_line)

/-- The event types of a legible header are plain. -/
theorem Legible.eventTypes {h : Header} (hh : h.Legible) :
    ∀ item ∈ eventTypes h.events, item.Plain := by
  intro item hitem
  obtain ⟨⟨component, events⟩, hc, hmem⟩ := List.mem_flatMap.mp hitem
  rcases List.mem_append.mp hmem with htitle | hevent
  · simp only [List.mem_cons, List.not_mem_nil, or_false] at htitle
    rcases htitle with rfl | rfl | rfl
    · exact plain_blank
    · exact plain_blank
    · exact plain_comment (hh.inLines.components _ hc) (by decide)
  · obtain ⟨event, he, hmem⟩ := List.mem_flatMap.mp hevent
    have hname : isIdentifier event.name = true := hh.events event.name <|
      List.mem_flatMap.mpr ⟨_, hc, List.mem_map_of_mem he⟩
    simp only [eventItems, List.mem_cons, List.not_mem_nil, or_false] at hmem
    rcases hmem with rfl | rfl
    · refine plain_arguments (isIdentifier_argumentsTag hname) fun f hf => ?_
      obtain ⟨p, hp, rfl⟩ := List.mem_map.mp hf
      exact hh.inLines.arguments _ hc event he p hp
    · have htag := feed_not_mem_of_isIdentifier (isIdentifier_argumentsTag hname)
      exact plain_function (isIdentifier_callbackType hname) (by decide) (by decide)
        (by simp [htag])

/-- The tables of a legible header are plain. -/
theorem Legible.dispatchTables {h : Header} (hh : h.Legible) :
    ∀ item ∈ dispatchTables h.surface, item.Plain := by
  intro item hitem
  obtain ⟨⟨group, records⟩, hg, hmem⟩ := List.mem_flatMap.mp hitem
  have hgroup : isIdentifier group = true :=
    hh.groups group (Surface.mem_groupNames_of_mem_sections hg)
  simp only [List.mem_cons, List.not_mem_nil, or_false] at hmem
  rcases hmem with rfl | rfl | rfl
  · exact plain_blank
  · exact plain_comment (feed_not_mem_of_isIdentifier hgroup) (by decide)
  · refine plain_table (isIdentifier_tableTag hgroup) fun f hf => ?_
    obtain ⟨r, hr, rfl⟩ := List.mem_map.mp hf
    have hname := hh.names r (Surface.mem_toList_iff_sections.mpr ⟨_, hg, hr⟩)
    exact ⟨feed_not_mem_of_isIdentifier (isIdentifier_functionType hgroup hname),
      feed_not_mem_of_isIdentifier hname⟩

/-- The struct of all tables of a legible header is plain. -/
theorem Legible.rootAggregate {h : Header} (hh : h.Legible) :
    ∀ item ∈ rootAggregate h.surface, item.Plain := by
  have htitle : (Item.line "// All APIs").Plain := (quiet_ofList (by decide) (by decide)).plain
  intro item hitem
  simp only [Header.rootAggregate, List.mem_cons, List.not_mem_nil, or_false] at hitem
  rcases hitem with rfl | rfl | rfl
  · exact plain_blank
  · exact htitle
  · refine plain_table (by decide) fun f hf => ?_
    obtain ⟨group, hgroup, rfl⟩ := List.mem_map.mp hf
    have hname := hh.groups group hgroup
    exact ⟨by simp [feed_not_mem_of_isIdentifier (isIdentifier_tableTag hname)],
      feed_not_mem_of_isIdentifier hname⟩

/-- The declarations of a legible header are plain. -/
theorem Legible.declarations {h : Header} (hh : h.Legible) :
    ∀ item ∈ h.declarations, item.Plain := by
  have hentities : ∀ item ∈ entityAliases entityTypes, item.Plain := by decide +kernel
  intro item hitem
  simp only [Header.declarations, hh.entities, List.mem_append, or_assoc] at hitem
  rcases hitem with hmem | hmem | hmem | hmem | hmem | hmem | hmem
  · exact plain_preamble item hmem
  · exact hentities item hmem
  · exact hh.functionTypes item hmem
  · exact hh.eventTypes item hmem
  · rw [List.mem_singleton.mp hmem]
    exact plain_blank
  · exact hh.dispatchTables item hmem
  · exact hh.rootAggregate item hmem

/-- The groups of records are identifiers. -/
theorem Legible.group {h : Header} (hh : h.Legible) {r : Record} (hr : r ∈ h.surface.toList) :
    isIdentifier r.group = true := by
  obtain ⟨g, hg, hmem⟩ := Surface.mem_toList_iff_sections.mp hr
  rw [hh.surface.wellFormed.group_eq hg hmem]
  exact hh.groups g.1 (Surface.mem_groupNames_of_mem_sections hg)

/-- The binding of a record is plain. -/
theorem Legible.bindFunction {h : Header} (hh : h.Legible) {r : Record}
    (hr : r ∈ h.surface.toList) : (bindFunction r.group r.name r.symbol).Plain := by
  have hgroup := hh.group hr
  have hname := hh.names r hr
  refine ⟨?_, ?_, (hh.surface.records r hr).symbol_line⟩
  · simp [Slot.text, feed_not_mem_of_isIdentifier hgroup, feed_not_mem_of_isIdentifier hname]
  · exact feed_not_mem_of_isIdentifier (isIdentifier_functionType hgroup hname)

/-- The initializer of a legible header is plain. -/
theorem Legible.program {h : Header} (hh : h.Legible) {r : Record}
    (hget : h.surface.get? h.sentinel.group h.sentinel.name = some r) :
    ∀ st ∈ program h.surface h.library h.sentinel r.symbol, st.Plain := by
  obtain ⟨hr, hkey⟩ := hh.surface.wellFormed.get?_eq_some_iff.mp hget
  obtain ⟨hgroup, hname⟩ := Prod.mk.inj hkey
  refine plain_program hh.inLines.library ?_ fun g hg => ⟨?_, fun q hq => ?_⟩
  · rw [← hgroup, ← hname]
    exact hh.bindFunction hr
  · exact feed_not_mem_of_isIdentifier (hh.groups g.1 (Surface.mem_groupNames_of_mem_sections hg))
  · have hmem : q ∈ h.surface.toList := Surface.mem_toList_iff_sections.mpr ⟨g, hg, hq⟩
    rw [← hh.surface.wellFormed.group_eq hg hq]
    exact hh.bindFunction hmem

/-- The end of a header defines nothing. -/
theorem quiet_footer : ∀ line ∈ linesOf footer, Quiet line := by
  have hlines : linesOf footer = ["", "#endif", "", "#endif /* OMPCAPI_H */"] := rfl
  rw [hlines]
  simp only [List.forall_mem_cons]
  exact ⟨quiet_ofList (by decide) (by decide), quiet_ofList (by decide) (by decide),
    quiet_ofList (by decide) (by decide), quiet_ofList (by decide) (by decide), by simp⟩

end Bindery.Header
