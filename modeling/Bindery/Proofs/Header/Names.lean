import Bindery.Header.Document
import Bindery.Proofs.Scan.Records
import Mathlib.Data.List.Nodup

/-!
# The names that a header defines

Most names of a header are coined: a first part without an underscore, an underscore, and a rest.
The first part is a group or one of a few fixed words, and the rest is a name that is not watched
over any more. Two coined names are the same only if their parts are. So the names of a header
clash in a few ways only, which are told here by the groups and the events.
-/

namespace Bindery

/-- The names of all events, component by component. -/
def EventSchema.names (e : EventSchema) : List String :=
  e.components.flatMap fun (_, events) => events.map Event.name

namespace Header

/-- A name of two parts. -/
def coined (front rest : String) : String := front ++ "_" ++ rest

/-- The characters of a coined name. -/
theorem toList_coined (front rest : String) :
    (coined front rest).toList = front.toList ++ '_' :: rest.toList := by
  simp [coined]

/-- Coined names with first parts that have no underscore are the same only if their parts are. -/
theorem coined_inj {front rest front' rest' : String} (h : '_' ∉ front.toList)
    (h' : '_' ∉ front'.toList) (heq : coined front rest = coined front' rest') :
    (front, rest) = (front', rest') := by
  have hcut := Text.cutAt?_singleton_eq_some_iff.mpr ⟨toList_coined front rest, h⟩
  rw [heq, Text.cutAt?_singleton_eq_some_iff.mpr ⟨toList_coined front' rest', h'⟩] at hcut
  obtain ⟨hfront, hrest⟩ := Prod.mk.inj (Option.some.inj hcut)
  rw [String.toList_inj.mp hfront, String.toList_inj.mp hrest]

/-- Plain names have no underscore, so that among them and coined names none is there twice exactly
if no coined one has the parts of another. -/
theorem nodup_plain_coined_iff {plain : List String} {parts : List (String × String)}
    (hplain : ∀ name ∈ plain, '_' ∉ name.toList) (hnodup : plain.Nodup)
    (hparts : ∀ p ∈ parts, '_' ∉ p.1.toList) :
    (plain ++ parts.map fun p => coined p.1 p.2).Nodup ↔ parts.Nodup := by
  have hapart : ∀ name ∈ plain, ∀ other ∈ parts.map (fun p => coined p.1 p.2), name ≠ other := by
    rintro name hname other hother rfl
    obtain ⟨p, -, hp⟩ := List.mem_map.mp hother
    refine hplain name hname ?_
    rw [← hp, toList_coined]
    simp
  rw [List.nodup_append, and_iff_right hnodup, and_iff_left hapart]
  constructor
  · exact List.Nodup.of_map _
  · exact List.Nodup.map_on fun p hp q hq => coined_inj (hparts p hp) (hparts q hq)

/-- The tag of a table is coined from the group. -/
theorem tableTag_eq : tableTag = fun group => coined group "t" := by
  funext group
  rw [coined, String.append_assoc]
  rfl

/-- The name of a function's type is coined from the group. -/
theorem functionType_eq (group name : String) :
    functionType group name = coined group (name ++ "_t") := by
  rw [functionType, coined, String.append_assoc]

/-- The tag of an event's argument struct is coined from a fixed word. -/
theorem argumentsTag_eq : argumentsTag = coined "EventArgs" := rfl

/-- The name of an event's callback type is coined from a fixed word. -/
theorem callbackType_eq : callbackType = coined "EventCallback" := rfl

/-- The tag of the struct that holds all tables looks like one of a group. -/
theorem rootTag_eq : rootTag = coined "OMPAPI" "t" := rfl

/-- Items in a row define their tags in a row. -/
theorem tags_append (a b : List Item) : tags (a ++ b) = tags a ++ tags b := List.filterMap_append

/-- Items in a row define their type names in a row. -/
theorem typeNames_append (a b : List Item) : typeNames (a ++ b) = typeNames a ++ typeNames b :=
  List.filterMap_append

/-- The tables have the tags of the groups. -/
theorem tags_dispatchTables (s : Surface) :
    tags (dispatchTables s) = s.groupNames.map tableTag := by
  simp [tags, dispatchTables, Item.tag?, Surface.sections, Surface.groupNames, Keyed.keys,
    List.filterMap_flatMap, List.filterMap_cons, List.flatMap_map, Function.comp_def,
    ← List.map_eq_flatMap]

/-- The function types are named in the order of the surface. -/
theorem typeNames_functionTypes {s : Surface} (hs : s.WellFormed) :
    typeNames (functionTypes s) = s.toList.map fun r => functionType r.group r.name := by
  rw [← hs.flatMap_sections fun group r => functionType group r.name, typeNames, functionTypes,
    List.filterMap_flatMap]
  refine List.flatMap_congr fun g _ => ?_
  simp [List.filterMap_cons, Function.comp_def, Item.typeName?]

/-- The tags of a header: the fixed ones, those of the events and those of the groups. -/
theorem tags_declarations (h : Header) :
    tags h.declarations = tags preamble ++ (h.events.names.map argumentsTag ++
      h.surface.groupNames.map tableTag ++ [rootTag]) := by
  have hentities : tags (entityAliases h.entities) = [] := by
    simp [tags, entityAliases, Item.tag?]
  have hfunctions : tags (functionTypes h.surface) = [] := by
    rw [tags, functionTypes, List.filterMap_flatMap, List.flatMap_eq_nil_iff]
    intro g _
    simp [List.filterMap_cons, Item.tag?]
  have hevents : tags (eventTypes h.events) = h.events.names.map argumentsTag := by
    rw [tags, eventTypes, List.filterMap_flatMap, EventSchema.names, List.map_flatMap]
    refine List.flatMap_congr fun component _ => ?_
    simp [List.filterMap_cons, List.filterMap_flatMap, eventItems, Item.tag?, Function.comp_def,
      ← List.map_eq_flatMap]
  have hroot : tags (rootAggregate h.surface) = [rootTag] := rfl
  have hline : tags [.line ""] = [] := rfl
  simp only [declarations, tags_append, hentities, hfunctions, hevents, tags_dispatchTables, hroot,
    hline, List.nil_append, List.append_assoc]

/-- The type names of a header: the fixed ones, those of the functions and those of the events. -/
theorem typeNames_declarations (h : Header) (hs : h.surface.WellFormed) :
    typeNames h.declarations = typeNames preamble ++ h.entities ++
      (h.surface.toList.map (fun r => functionType r.group r.name) ++
        h.events.names.map callbackType) := by
  have hentities : typeNames (entityAliases h.entities) = h.entities := by
    simp [typeNames, entityAliases, Function.comp_def, Item.typeName?]
  have hevents : typeNames (eventTypes h.events) = h.events.names.map callbackType := by
    rw [typeNames, eventTypes, List.filterMap_flatMap, EventSchema.names, List.map_flatMap]
    refine List.flatMap_congr fun component _ => ?_
    simp [List.filterMap_cons, List.filterMap_flatMap, eventItems, Item.typeName?,
      Function.comp_def, ← List.map_eq_flatMap]
  have htables : typeNames (dispatchTables h.surface) = [] := by
    rw [typeNames, dispatchTables, List.filterMap_flatMap, List.flatMap_eq_nil_iff]
    intro g _
    simp [List.filterMap_cons, Item.typeName?]
  have hroot : typeNames (rootAggregate h.surface) = [] := rfl
  have hline : typeNames [.line ""] = [] := rfl
  simp only [declarations, typeNames_append, hentities, typeNames_functionTypes hs, hevents,
    htables, hroot, hline, List.append_nil, List.append_assoc]

/-- What keeps the names of a header apart. -/
structure Apart (s : Surface) (e : EventSchema) : Prop where
  /-- No two events have the same name, also in different components. -/
  events_nodup : e.names.Nodup
  /-- No event has the name of the fixed argument struct and callback type. -/
  not_common : "Common" ∉ e.names
  /-- No table has the tag of the struct that holds all tables. -/
  not_root : "OMPAPI" ∉ s.groupNames
  /-- No table has the tag of an event's argument struct. -/
  not_arguments : "EventArgs" ∈ s.groupNames → "t" ∉ e.names
  /-- No function type has the name of an event's callback type. -/
  not_callback : ∀ r ∈ s.toList, r.group = "EventCallback" → r.name ++ "_t" ∉ e.names

/-- The parts of coined tags. -/
def tagParts (s : Surface) (e : EventSchema) : List (String × String) :=
  ("EventArgs", "Common") :: (e.names.map (Prod.mk "EventArgs") ++
    s.groupNames.map (fun group => (group, "t")) ++ [("OMPAPI", "t")])

/-- The parts of coined type names. -/
def typeParts (s : Surface) (e : EventSchema) : List (String × String) :=
  ("EventCallback", "Common") :: (s.toList.map (fun r => (r.group, r.name ++ "_t")) ++
    e.names.map (Prod.mk "EventCallback"))

/-- Parts with the same first part are different exactly if their rests are. -/
theorem nodup_map_mk_iff {front : String} {rests : List String} :
    (rests.map (Prod.mk front)).Nodup ↔ rests.Nodup :=
  List.nodup_map_iff fun _ _ hab => (Prod.mk.inj hab).2

/-- The coined tags are different exactly if events differ from each other and from the fixed one,
and groups from what the other tags begin with. -/
theorem nodup_tagParts_iff {s : Surface} (hs : s.groupNames.Nodup) (e : EventSchema) :
    (tagParts s e).Nodup ↔ e.names.Nodup ∧ "Common" ∉ e.names ∧ "OMPAPI" ∉ s.groupNames ∧
      ("EventArgs" ∈ s.groupNames → "t" ∉ e.names) := by
  unfold tagParts
  generalize hevents : e.names.map (Prod.mk "EventArgs") = events
  generalize hgroups : s.groupNames.map (fun group => (group, "t")) = groups
  have hnodupEvents : events.Nodup ↔ e.names.Nodup := by
    rw [← hevents]
    exact nodup_map_mk_iff
  have hnodupGroups : groups.Nodup := by
    rw [← hgroups]
    exact hs.map fun a b hab => (Prod.mk.inj hab).1
  have hcommon : ("EventArgs", "Common") ∉ events ++ groups ++ [("OMPAPI", "t")] ↔
      "Common" ∉ e.names := by
    simp [← hevents, ← hgroups]
  have hboth : (∀ a ∈ events, ∀ b ∈ groups, a ≠ b) ↔
      ("EventArgs" ∈ s.groupNames → "t" ∉ e.names) := by
    simp only [← hevents, ← hgroups, List.forall_mem_map, ne_eq, Prod.mk.injEq, not_and]
    constructor
    · exact fun h hgroup hname => h "t" hname "EventArgs" hgroup rfl rfl
    · rintro h name hname group hgroup rfl rfl
      exact h hgroup hname
  have hroot : (∀ a ∈ events ++ groups, ∀ b ∈ [("OMPAPI", "t")], a ≠ b) ↔
      "OMPAPI" ∉ s.groupNames := by
    simp [← hevents, ← hgroups, or_imp, forall_and, List.forall_mem_ne']
  rw [List.nodup_cons, List.nodup_append, List.nodup_append, hcommon, hboth, hroot, hnodupEvents]
  simp only [hnodupGroups, List.nodup_singleton, true_and]
  tauto

/-- The coined type names are different exactly if events differ from each other, from the fixed
one, and from the functions of a group that is called like what callback types begin with. -/
theorem nodup_typeParts_iff {s : Surface} (hs : s.WellFormed) (e : EventSchema) :
    (typeParts s e).Nodup ↔ e.names.Nodup ∧ "Common" ∉ e.names ∧
      ∀ r ∈ s.toList, r.group = "EventCallback" → r.name ++ "_t" ∉ e.names := by
  unfold typeParts
  generalize hevents : e.names.map (Prod.mk "EventCallback") = events
  generalize hfunctions : s.toList.map (fun r => (r.group, r.name ++ "_t")) = functions
  have hnodupEvents : events.Nodup ↔ e.names.Nodup := by
    rw [← hevents]
    exact nodup_map_mk_iff
  have hnodupFunctions : functions.Nodup := by
    have hkeys : functions = (s.toList.map Record.key).map fun k => (k.1, k.2 ++ "_t") := by
      rw [← hfunctions, List.map_map]
      rfl
    rw [hkeys]
    refine hs.nodup_keys_toList.map fun a b hab => ?_
    obtain ⟨hgroup, hname⟩ := Prod.mk.inj hab
    exact Prod.ext hgroup ((String.append_left_inj "_t").mp hname)
  have hending : ∀ name : String, name ++ "_t" ≠ "Common" := by
    intro name hname
    have hlast := congrArg (fun text => text.toList.getLast?) hname
    simp at hlast
  have hcommon : ("EventCallback", "Common") ∉ functions ++ events ↔ "Common" ∉ e.names := by
    simp [← hevents, ← hfunctions, hending]
  have hboth : (∀ a ∈ functions, ∀ b ∈ events, a ≠ b) ↔
      ∀ r ∈ s.toList, r.group = "EventCallback" → r.name ++ "_t" ∉ e.names := by
    simp only [← hevents, ← hfunctions, List.forall_mem_map, ne_eq, Prod.mk.injEq, not_and]
    constructor
    · exact fun h r hr hgroup hname => h r hr _ hname hgroup rfl
    · rintro h r hr name hname hgroup rfl
      exact h r hr hgroup hname
  rw [List.nodup_cons, List.nodup_append, hcommon, hboth, hnodupEvents]
  simp only [hnodupFunctions, true_and]
  tauto

/-- The fixed tags that are not coined. -/
def plainTags : List String :=
  ["EventPriorityType", "ComponentVersion", "CAPIStringView", "CAPIStringBuffer"]

/-- The fixed type names that are not coined. -/
def plainTypeNames : List String :=
  ["ComponentOnReadyCallback", "ComponentOnResetCallback", "ComponentOnFreeCallback"] ++ entityTypes

/-- The names of a header for what was cut from lines are all different exactly if its groups and
events keep them apart. -/
theorem nodup_names_iff {h : Header} (hs : h.surface.CutFromLines)
    (hentities : h.entities = entityTypes) :
    (tags h.declarations).Nodup ∧ (typeNames h.declarations).Nodup ↔
      Apart h.surface h.events := by
  have htags : (tags h.declarations).Perm
      (plainTags ++ (tagParts h.surface h.events).map fun p => coined p.1 p.2) := by
    have hfixed : (tags preamble).Perm (plainTags ++ [coined "EventArgs" "Common"]) := by
      decide
    rw [tags_declarations]
    refine (hfixed.append_right _).trans (List.Perm.of_eq ?_)
    simp [tagParts, Function.comp_def, tableTag_eq, argumentsTag_eq, rootTag_eq]
  have htypes : (typeNames h.declarations).Perm
      (plainTypeNames ++ (typeParts h.surface h.events).map fun p => coined p.1 p.2) := by
    have hfixed : (typeNames preamble ++ entityTypes).Perm
        (plainTypeNames ++ [coined "EventCallback" "Common"]) := by
      decide
    rw [typeNames_declarations h hs.wellFormed, hentities]
    refine (hfixed.append_right _).trans (List.Perm.of_eq ?_)
    simp [typeParts, Function.comp_def, functionType_eq, callbackType_eq]
  have hplainTags : (∀ name ∈ plainTags, '_' ∉ name.toList) ∧ plainTags.Nodup := by decide
  have hplainTypes : (∀ name ∈ plainTypeNames, '_' ∉ name.toList) ∧ plainTypeNames.Nodup := by
    decide
  have hgroups : ∀ p ∈ tagParts h.surface h.events, '_' ∉ p.1.toList := by
    have hcut := hs.group_cut
    simpa [tagParts, or_imp, forall_and] using hcut
  have hrecords : ∀ p ∈ typeParts h.surface h.events, '_' ∉ p.1.toList := by
    have hcut : ∀ r ∈ h.surface.toList, '_' ∉ r.group.toList := fun r hr =>
      (hs.records r hr).group_cut
    simpa [typeParts, or_imp, forall_and] using hcut
  rw [htags.nodup_iff, htypes.nodup_iff,
    nodup_plain_coined_iff hplainTags.1 hplainTags.2 hgroups,
    nodup_plain_coined_iff hplainTypes.1 hplainTypes.2 hrecords,
    nodup_tagParts_iff hs.wellFormed.groups_nodup, nodup_typeParts_iff hs.wellFormed]
  constructor
  · rintro ⟨⟨hnodup, hcommon, hroot, harguments⟩, -, -, hcallback⟩
    exact ⟨hnodup, hcommon, hroot, harguments, hcallback⟩
  · rintro ⟨hnodup, hcommon, hroot, harguments, hcallback⟩
    exact ⟨⟨hnodup, hcommon, hroot, harguments⟩, hnodup, hcommon, hcallback⟩

end Header

end Bindery
