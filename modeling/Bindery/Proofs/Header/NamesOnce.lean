import Bindery.Proofs.Header.Legible

/-!
# Each name of a header is defined once

The text of a header for a scanned surface defines the names of its declarations and no others. Each
of them is defined once exactly if the groups and the events keep them apart. That the events of two
components have a name in common is enough for a clash.
-/

namespace Bindery.Header

/-- A legible header with its mandatory function is written, and its text defines the names of its
declarations and no others. -/
theorem Legible.exists_render {h : Header} (hh : h.Legible)
    (hsentinel : h.surface.contains h.sentinel.group h.sentinel.name = true) :
    ∃ text, h.render = .ok text ∧ readTags (linesOfText text) = tags h.declarations ∧
      readTypeNames (linesOfText text) = typeNames h.declarations := by
  obtain ⟨r, hr⟩ := Option.isSome_iff_exists.mp hsentinel
  have hget : h.surface.get? h.sentinel.group h.sentinel.name = some r := hr
  have hprogram := hh.program hget
  have hstatements :
      h.statements = .ok (Header.program h.surface h.library h.sentinel r.symbol) := by
    unfold statements initializer
    rw [hget]
  generalize Header.program h.surface h.library h.sentinel r.symbol = program at *
  have hquiet : ∀ line ∈ functionLines program ++ linesOf footer, Quiet line := by
    intro line hline
    rcases List.mem_append.mp hline with hmem | hmem
    · exact quiet_functionLines hprogram line hmem
    · exact quiet_footer line hmem
  have hlines : linesOfText ("\n".intercalate (linesOf h.declarations ++ functionLines program ++
      linesOf footer) ++ "\n") =
        linesOf h.declarations ++ (functionLines program ++ linesOf footer ++ [""]) := by
    rw [List.append_assoc, linesOfText_intercalate, List.append_assoc]
    · simp [functionLines]
    · intro line hline
      rcases List.mem_append.mp hline with hdeclared | hrest
      · obtain ⟨item, hitem, hmem⟩ := List.mem_flatMap.mp hdeclared
        exact (hh.declarations item hitem).inLines line hmem
      · exact (hquiet line hrest).inLine
  have hlegible : ∀ item ∈ h.declarations, item.Legible :=
    fun item hitem => (hh.declarations item hitem).legible
  have hidle : ∀ line ∈ functionLines program ++ linesOf footer ++ [""], Idle line := by
    intro line hline
    rcases List.mem_append.mp hline with hmem | hlast
    · exact (hquiet line hmem).idle
    · rw [List.mem_singleton.mp hlast]
      decide
  refine ⟨"\n".intercalate (linesOf h.declarations ++ functionLines program ++ linesOf footer) ++
    "\n", ?_, ?_, ?_⟩
  · rw [render, lines, hstatements]
    rfl
  · have hrest := readTags_idle_append hidle []
    rw [List.append_nil] at hrest
    rw [hlines, readTags_linesOf hlegible, hrest]
    exact List.append_nil _
  · rw [hlines, readTypeNames_append, readTypeNames_linesOf hlegible, readTypeNames_idle hidle,
      List.append_nil]

/-- In the text of a header for a scanned surface with the mandatory function each tag and each
type name is defined once, exactly if the groups and the events keep the names apart. Groups, names
of functions and names of events are to be identifiers, and the rest of the events and the name of
the library have to stand in single lines. -/
theorem defined_once_iff_apart {t : FileTree} {root : Path} {suffix marker : String}
    {duplicates : Duplicates} {s : Surface} {e : EventSchema} {library : String} {sentinel : Slot}
    (hscan : (Scan.surface t root ⟨suffix, ⟨.header, false, marker⟩, duplicates⟩).result = .ok s)
    (hsentinel : s.contains sentinel.group sentinel.name = true)
    (hgroups : ∀ group ∈ s.groupNames, isIdentifier group = true)
    (hnames : ∀ r ∈ s.toList, isIdentifier r.name = true)
    (hevents : ∀ event ∈ e.names, isIdentifier event = true) (hlines : InLines e library) :
    ∃ text, Header.render { surface := s, events := e, library, sentinel } = .ok text ∧
      ((readTags (linesOfText text)).Nodup ∧ (readTypeNames (linesOfText text)).Nodup ↔
        Apart s e) := by
  have hcut := Scan.cutFromLines_of_surface hscan
  have hh : Header.Legible { surface := s, events := e, library, sentinel } :=
    ⟨hcut, hgroups, hnames, rfl, hevents, hlines⟩
  obtain ⟨text, htext, htags, htypes⟩ := hh.exists_render hsentinel
  refine ⟨text, htext, ?_⟩
  rw [htags, htypes]
  exact nodup_names_iff hcut rfl

/-- A tree with one source, which has one annotation. -/
def sampleTree : FileTree :=
  ⟨[(["CoreAPIs.cpp"], .file (Utf8.encode "OMP_CAPI(Core_TickCount, uint32_t())"))], []⟩

/-- The surface of the small tree. -/
def sampleSurface : Surface := Surface.empty.put
  ⟨"Core", "TickCount", "uint32_t", [], "Core_TickCount", some ⟨"CoreAPIs.cpp", 1⟩⟩

/-- An event document in which two components have one event each, under given names. -/
def sampleDocument (first second : String) : Json := .object [
  ("Player", .list [.object [("name", .text first)]]),
  ("Vehicle", .list [.object [("name", .text second)]])]

/-- The schema of the event document. -/
def sampleSchema (first second : String) : EventSchema :=
  ⟨[("Player", [⟨first, []⟩]), ("Vehicle", [⟨second, []⟩])]⟩

/-- The scan of the small tree gives its surface. -/
theorem scan_sampleTree :
    (Scan.surface sampleTree ⟨.here, []⟩ ⟨"APIs.cpp", ⟨.header, false, Signature.marker⟩,
      .replace⟩).result = .ok sampleSurface := by
  have hscan : (Scan.surface sampleTree ⟨.here, []⟩ ⟨"APIs.cpp",
      ⟨.header, false, Signature.marker⟩, .replace⟩).result.toOption = some sampleSurface := by
    decide +kernel
  generalize (Scan.surface sampleTree ⟨.here, []⟩ ⟨"APIs.cpp",
    ⟨.header, false, Signature.marker⟩, .replace⟩).result = result at hscan
  cases result with
  | error e => exact nomatch hscan
  | ok s => exact congrArg Except.ok (Option.some.inj hscan)

/-- The names of the sample are identifiers. -/
theorem isIdentifier_sampleSurface :
    (∀ group ∈ sampleSurface.groupNames, isIdentifier group = true) ∧
      ∀ r ∈ sampleSurface.toList, isIdentifier r.name = true := by
  decide +kernel

/-- The sample has the usual mandatory function. -/
theorem contains_sampleSurface : sampleSurface.contains (Slot.mk "Core" "TickCount").group
    (Slot.mk "Core" "TickCount").name = true := by
  decide

/-- With events of different names the small header defines each name once. -/
theorem defined_once_in_sample :
    Apart sampleSurface (sampleSchema "OnSpawn" "OnStreamIn") ∧
    ∃ text, Header.render
        { surface := sampleSurface, events := sampleSchema "OnSpawn" "OnStreamIn" } = .ok text ∧
      (readTags (linesOfText text)).Nodup ∧ (readTypeNames (linesOfText text)).Nodup := by
  have hapart : Apart sampleSurface (sampleSchema "OnSpawn" "OnStreamIn") :=
    ⟨by decide, by decide, by decide, by decide, by decide⟩
  have hevents : ∀ event ∈ (sampleSchema "OnSpawn" "OnStreamIn").names,
      isIdentifier event = true := by
    decide +kernel
  have hlines : InLines (sampleSchema "OnSpawn" "OnStreamIn") "$CAPI" :=
    ⟨by decide +kernel, by decide +kernel, by decide⟩
  obtain ⟨text, htext, hiff⟩ := defined_once_iff_apart scan_sampleTree contains_sampleSurface
    isIdentifier_sampleSurface.1 isIdentifier_sampleSurface.2 hevents hlines
  exact ⟨hapart, text, htext, hiff.mpr hapart⟩

/-- Events of one name in two components give a header that defines this tag and this type name
twice, though the schema is accepted and everything in it is an identifier. -/
theorem shared_event_defined_twice :
    (Scan.surface sampleTree ⟨.here, []⟩ ⟨"APIs.cpp", ⟨.header, false, Signature.marker⟩,
      .replace⟩).result = .ok sampleSurface ∧
    sampleSurface.contains "Core" "TickCount" = true ∧
    (∀ group ∈ sampleSurface.groupNames, isIdentifier group = true) ∧
    (∀ r ∈ sampleSurface.toList, isIdentifier r.name = true) ∧
    EventSchema.read .header (sampleDocument "OnSpawn" "OnSpawn") =
      .ok (sampleSchema "OnSpawn" "OnSpawn") ∧
    (∀ event ∈ (sampleSchema "OnSpawn" "OnSpawn").names, isIdentifier event = true) ∧
    ∃ text, Header.render { surface := sampleSurface, events := sampleSchema "OnSpawn" "OnSpawn" } =
        .ok text ∧
      (readTags (linesOfText text)).count "EventArgs_OnSpawn" = 2 ∧
      (readTypeNames (linesOfText text)).count "EventCallback_OnSpawn" = 2 := by
  have hevents : ∀ event ∈ (sampleSchema "OnSpawn" "OnSpawn").names, isIdentifier event = true := by
    decide +kernel
  have hlines : InLines (sampleSchema "OnSpawn" "OnSpawn") "$CAPI" :=
    ⟨by decide +kernel, by decide +kernel, by decide⟩
  have hh : Header.Legible
      { surface := sampleSurface, events := sampleSchema "OnSpawn" "OnSpawn" } :=
    ⟨Scan.cutFromLines_of_surface scan_sampleTree, isIdentifier_sampleSurface.1,
      isIdentifier_sampleSurface.2, rfl, hevents, hlines⟩
  obtain ⟨text, htext, htags, htypes⟩ := hh.exists_render contains_sampleSurface
  refine ⟨scan_sampleTree, contains_sampleSurface, isIdentifier_sampleSurface.1,
    isIdentifier_sampleSurface.2, rfl, hevents, text, htext, ?_, ?_⟩
  · rw [htags]
    decide +kernel
  · rw [htypes]
    decide +kernel

end Bindery.Header
