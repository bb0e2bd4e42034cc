import Bindery.Proofs.Header.Names

/-!
# The sections of a header refer to each other

Four sections of a header go along a surface by themselves: the function types, the tables, the
struct that holds the tables, and the initializer. They coin the same names. Each function has one
type name, which is the type of its field in the table of its group and the cast of what is assigned
to that field; no two functions share it, since a scan cuts a symbol at its first underscore. And
the sections stand in such an order that everything is there before it is used.
-/

namespace Bindery

namespace Header

/-- What a part of a header introduces and another one refers to. -/
inductive Reference
  /-- A type as it is spelled: a type name, or a struct or an enumeration with its tag. -/
  | type (spelling : String)
  /-- A field of the struct with a tag. -/
  | field (tag : String) (field : Field)
  deriving DecidableEq, Repr

/-- What an item introduces. -/
def Item.introduces : Item → List Reference
  | .line _ => []
  | .enumeration tag _ => [.type ("enum " ++ tag)]
  | .record tag _ | .arguments tag _ => [.type ("struct " ++ tag)]
  | .handle name | .function name _ _ => [.type name]
  | .table tag fields => .type ("struct " ++ tag) :: fields.map (.field tag)

/-- What an item refers to of what a header introduces for a surface: a table to the types of its
fields. The types in signatures come from elsewhere. -/
def Item.refersTo : Item → List Reference
  | .table _ fields => fields.map fun f => .type f.type
  | _ => []

/-- What a slot refers to, where a function of some type is expected in it: the table of its group
in the struct that holds all tables, and its own field in that table. -/
def Slot.refersTo (slot : Slot) (type : String) : List Reference :=
  [.field rootTag ⟨"struct " ++ tableTag slot.group, slot.group⟩,
    .field (tableTag slot.group) ⟨type, slot.name⟩]

/-- What a statement refers to. -/
def Statement.refersTo : Statement → List Reference
  | .bind slot cast _ => .type cast :: slot.refersTo cast
  | .requireSlot slot => slot.refersTo (functionType slot.group slot.name)
  | _ => []

/-- A part of a header. -/
inductive Piece
  /-- An item. -/
  | item (item : Item)
  /-- The lines that open the initializer. -/
  | opening
  /-- A statement of the initializer. -/
  | statement (statement : Statement)
  /-- The line that closes the initializer. -/
  | closing

namespace Piece

/-- The lines of a part. -/
def lines : Piece → List String
  | .item i => i.lines
  | .opening => ["", "static bool omp_initialize_capi(struct " ++ rootTag ++ "* ompapi) \x7b"]
  | .statement s => s.lines
  | .closing => ["\x7d;"]

/-- What a part introduces. -/
def introduces : Piece → List Reference
  | .item i => i.introduces
  | _ => []

/-- What a part refers to. The initializer is given the struct that holds all tables. -/
def refersTo : Piece → List Reference
  | .item i => i.refersTo
  | .opening => [.type ("struct " ++ rootTag)]
  | .statement s => s.refersTo
  | .closing => []

end Piece

/-- The parts of a header with an initializer. -/
def pieces (h : Header) (statements : List Statement) : List Piece :=
  h.declarations.map .item ++ [.opening] ++ statements.map .statement ++ [.closing] ++
    footer.map .item

/-- The lines of a header are those of its parts. -/
theorem lines_pieces (h : Header) (statements : List Statement) :
    (pieces h statements).flatMap Piece.lines =
      linesOf h.declarations ++ functionLines statements ++ linesOf footer := by
  simp [pieces, functionLines, linesOf, List.flatMap_map, Piece.lines]

/-- Parts refer only to what is known before them, or what parts before them introduce. -/
def InOrder (known : List Reference) : List Piece → Prop
  | [] => True
  | p :: ps => (∀ r ∈ p.refersTo, r ∈ known) ∧ InOrder (known ++ p.introduces) ps

/-- What is known may be more. -/
theorem InOrder.mono {known more : List Reference} {ps : List Piece} (h : InOrder known ps)
    (hmore : known ⊆ more) : InOrder more ps := by
  induction ps generalizing known more with
  | nil => trivial
  | cons p ps ih =>
    obtain ⟨hp, hps⟩ := h
    exact ⟨fun r hr => hmore (hp r hr), ih hps (List.append_subset.mpr
    ⟨List.subset_append_of_subset_left _ hmore, List.subset_append_right _ _⟩)⟩

/-- Parts that refer to nothing but what is known are in order. -/
theorem inOrder_of_known {known : List Reference} {ps : List Piece}
    (h : ∀ p ∈ ps, ∀ r ∈ p.refersTo, r ∈ known) : InOrder known ps := by
  induction ps with
  | nil => trivial
  | cons p ps ih =>
    have hps := ih fun q hq => h q (List.mem_cons_of_mem p hq)
    exact ⟨h p List.mem_cons_self, hps.mono (List.subset_append_left _ _)⟩

/-- Parts after others may refer to what those introduce. -/
theorem inOrder_append {known : List Reference} {ps qs : List Piece} :
    InOrder known (ps ++ qs) ↔
      InOrder known ps ∧ InOrder (known ++ ps.flatMap Piece.introduces) qs := by
  induction ps generalizing known with
  | nil => simp [InOrder]
  | cons p ps ih =>
    rw [List.cons_append, InOrder, InOrder, ih, List.flatMap_cons, List.append_assoc, and_assoc]

/-- Where parts are in order, what each one refers to is introduced before it. -/
theorem InOrder.mem_introduces {ps before after : List Piece} {p : Piece} (h : InOrder [] ps)
    (hps : ps = before ++ p :: after) : ∀ r ∈ p.refersTo, r ∈ before.flatMap Piece.introduces := by
  rw [hps, inOrder_append, List.nil_append] at h
  exact h.2.1

/-- The names of the types of all functions, in the order of the surface. -/
def functionNames (s : Surface) : List String := s.toList.map fun r => functionType r.group r.name

/-- The field of a function, with the tag of the table of its group. -/
def tableField (group : String) (r : Record) : String × Field :=
  (tableTag group, ⟨functionType group r.name, r.name⟩)

/-- The fields of all functions, in the order of the surface. -/
def functionFields (s : Surface) : List (String × Field) :=
  s.toList.map fun r => tableField r.group r

/-- The fields that tables declare, each with the tag of its table. -/
def declaredFields (items : List Item) : List (String × Field) :=
  items.flatMap fun
    | .table tag fields => fields.map (tag, ·)
    | _ => []

/-- The fields that statements assign, each with the tag of its table and the type that is cast to.
-/
def assignedFields (statements : List Statement) : List (String × Field) :=
  statements.filterMap fun
    | .bind slot cast _ => some (tableTag slot.group, ⟨cast, slot.name⟩)
    | _ => none

/-- The statements after the first check of a slot. -/
def afterCheck : List Statement → List Statement
  | [] => []
  | .requireSlot _ :: rest => rest
  | _ :: rest => afterCheck rest

/-- What stands in a text between a front and an ending. -/
def between? (front ending text : String) : Option String :=
  (Text.dropFront? front.toList text.toList).bind fun rest =>
    (Text.dropFront? ending.toList.reverse rest.reverse).map fun inside =>
      String.ofList inside.reverse

/-- The text of a comment, a directive or a blank line among items. -/
def Item.text? : Item → Option String
  | .line text => some text
  | _ => none

/-- The text of a comment or a blank line among statements. -/
def Statement.text? : Statement → Option String
  | .line text => some text
  | _ => none

/-- The groups that texts of one form name. -/
def titles (front ending : String) (texts : List String) : List String :=
  texts.filterMap (between? front ending)

/-- What was put between a front and an ending is found there. -/
theorem between?_append (front ending text : String) :
    between? front ending (front ++ text ++ ending) = some text := by
  simp [between?, List.append_assoc, Text.dropFront?_append]

section Sections

variable {s : Surface} (hs : s.WellFormed)

/-- The sections of a surface stand under its groups. -/
theorem map_fst_sections (s : Surface) : s.sections.map Prod.fst = s.groupNames := by
  simp [Surface.sections, Surface.groupNames, Keyed.keys]

/-- After its check the initializer binds the surface and succeeds. -/
theorem afterCheck_program (s : Surface) (library : String) (sentinel : Slot) (symbol : String) :
    afterCheck (program s library sentinel symbol) = bindAll s ++ [.line "", .succeed] := rfl

/-- Blank lines name no group. -/
theorem titles_blank_cons {front : String} (h : front ≠ "") (ending : String)
    (texts : List String) : titles front ending ("" :: texts) = titles front ending texts := by
  have hnone : between? front ending "" = none := by
    cases hfront : front.toList with
    | nil => exact absurd (String.toList_eq_nil_iff.mp hfront) h
    | cons c cs => simp [between?, hfront, Text.dropFront?]
  rw [titles, titles, List.filterMap_cons_none hnone]

/-- Sections with one title each name the groups in order. -/
theorem titles_flatMap_sections {front ending : String}
    {texts : String × List Record → List String}
    (h : ∀ g, titles front ending (texts g) = titles front ending [front ++ g.1 ++ ending]) :
    titles front ending (s.sections.flatMap texts) = s.groupNames := by
  have htitles : ∀ g, (texts g).filterMap (between? front ending) = [g.1] := by
    intro g
    refine (h g).trans ?_
    rw [titles, List.filterMap_cons_some (between?_append front ending g.1), List.filterMap_nil]
  rw [titles, List.filterMap_flatMap, ← map_fst_sections]
  simp only [htitles]
  exact List.map_eq_flatMap.symm

/-- The comments over the function types name the groups in order. -/
theorem titles_functionTypes (s : Surface) :
    titles "// " " function type definitions" ((functionTypes s).filterMap Item.text?) =
      s.groupNames := by
  have htexts : (functionTypes s).filterMap Item.text? = s.sections.flatMap fun g =>
      ["", "", "// " ++ g.1 ++ " function type definitions"] := by
    rw [functionTypes, List.filterMap_flatMap]
    refine List.flatMap_congr fun g _ => ?_
    simp [Item.text?]
  have hfront : "// " ≠ "" := by decide
  rw [htexts]
  refine titles_flatMap_sections fun g => ?_
  rw [titles_blank_cons hfront, titles_blank_cons hfront]

/-- The comments over the tables name the groups in order. -/
theorem titles_dispatchTables (s : Surface) :
    titles "// " " functions" ((dispatchTables s).filterMap Item.text?) = s.groupNames := by
  have htexts : (dispatchTables s).filterMap Item.text? = s.sections.flatMap fun g =>
      ["", "// " ++ g.1 ++ " functions"] := by
    rw [dispatchTables, List.filterMap_flatMap]
    refine List.flatMap_congr fun g _ => ?_
    simp [Item.text?]
  have hfront : "// " ≠ "" := by decide
  rw [htexts]
  exact titles_flatMap_sections fun g => titles_blank_cons hfront _ _

/-- The comments in the initializer after its check name the groups in order. -/
theorem titles_program (s : Surface) (library : String) (sentinel : Slot) (symbol : String) :
    titles "    // Retrieve " " functions"
      ((afterCheck (program s library sentinel symbol)).filterMap Statement.text?) =
        s.groupNames := by
  have htexts : (bindAll s).filterMap Statement.text? = s.sections.flatMap fun g =>
      ["", "    // Retrieve " ++ g.1 ++ " functions"] := by
    rw [bindAll, List.filterMap_flatMap]
    refine List.flatMap_congr fun g _ => ?_
    simp [Statement.text?, bindFunction]
  have hfront : "    // Retrieve " ≠ "" := by decide
  have hgroups : titles "    // Retrieve " " functions" (s.sections.flatMap fun g =>
      ["", "    // Retrieve " ++ g.1 ++ " functions"]) = s.groupNames :=
    titles_flatMap_sections fun g => titles_blank_cons hfront _ _
  have hlast : titles "    // Retrieve " " functions"
      (([.line "", .succeed] : List Statement).filterMap Statement.text?) = [] :=
    titles_blank_cons hfront _ _
  rw [afterCheck_program, List.filterMap_append, htexts, titles, List.filterMap_append, ← titles,
    ← titles, hgroups, hlast, List.append_nil]

include hs in
/-- The tables declare a field for every function, in the order of the surface. -/
theorem declaredFields_dispatchTables :
    declaredFields (dispatchTables s) = functionFields s := by
  rw [functionFields, ← hs.flatMap_sections tableField, declaredFields, dispatchTables,
    List.flatMap_assoc]
  refine List.flatMap_congr fun g _ => ?_
  simp [tableFields, Function.comp_def, tableField]

include hs in
/-- After its check the initializer assigns the field of every function, in the order of the
surface. -/
theorem assignedFields_program (library : String) (sentinel : Slot) (symbol : String) :
    assignedFields (afterCheck (program s library sentinel symbol)) = functionFields s := by
  rw [functionFields, ← hs.flatMap_sections tableField, afterCheck_program, assignedFields,
    List.filterMap_append, bindAll, List.filterMap_flatMap]
  simp only [List.filterMap_cons, List.filterMap_nil, List.append_nil]
  refine List.flatMap_congr fun g _ => ?_
  simp [bindFunction, tableField]

/-- There are as many names as functions. -/
theorem length_functionNames (s : Surface) : (functionNames s).length = s.size := by
  rw [functionNames, List.length_map, Surface.size_eq_length_toList]

/-- No two functions that are cut from lines have one type name. -/
theorem nodup_functionNames (hcut : s.CutFromLines) : (functionNames s).Nodup := by
  have hkeys := hcut.wellFormed.nodup_keys_toList
  refine List.Nodup.map_on (fun r hr q hq heq => ?_) (List.Nodup.of_map _ hkeys)
  rw [functionType_eq, functionType_eq] at heq
  obtain ⟨hgroup, hname⟩ := Prod.mk.inj
    (coined_inj (hcut.records r hr).group_cut (hcut.records q hq).group_cut heq)
  have hkey : q.key = r.key :=
    Prod.ext hgroup.symm ((String.append_left_inj "_t").mp hname).symm
  exact (hcut.wellFormed.eq_of_key_eq hr hq hkey).symm

/-- What the uses of a function refer to: its type, the table of its group and its field there. -/
def usesOf (r : Record) : List Reference :=
  .type (functionType r.group r.name) ::
    Slot.refersTo ⟨r.group, r.name⟩ (functionType r.group r.name)

include hs in
/-- The initializer uses functions of the surface. -/
theorem exists_of_mem_refersTo_program {library : String} {sentinel : Slot} {record : Record}
    (hsentinel : s.get? sentinel.group sentinel.name = some record) :
    ∀ st ∈ program s library sentinel record.symbol, ∀ ref ∈ st.refersTo,
      ∃ r ∈ s.toList, ref ∈ usesOf r := by
  obtain ⟨hmem, hkey⟩ := hs.get?_eq_some_iff.mp hsentinel
  obtain ⟨hgroup, hname⟩ := Prod.mk.inj hkey
  intro st hst ref href
  unfold program at hst
  rcases List.mem_append.mp hst with hst | hlast
  · rcases List.mem_append.mp hst with hfirst | hbind
    · -- The beginning binds and checks the mandatory function.
      have huses : ref ∈ usesOf record := by
        unfold usesOf
        rw [hgroup, hname]
        have hcases : st = bindFunction sentinel.group sentinel.name record.symbol ∨
            st = .requireSlot sentinel ∨ st.refersTo = [] := by
          simp only [List.mem_cons, List.not_mem_nil, or_false] at hfirst
          rcases hfirst with rfl | rfl | rfl | rfl | rfl | rfl | rfl | rfl | rfl <;>
            simp [Statement.refersTo]
        rcases hcases with rfl | rfl | hnone
        · exact href
        · exact List.mem_cons_of_mem _ href
        · rw [hnone] at href
          exact absurd href List.not_mem_nil
      exact ⟨record, hmem, huses⟩
    · obtain ⟨g, hg, hst⟩ := List.mem_flatMap.mp hbind
      rcases List.mem_append.mp hst with hline | hfunction
      · simp only [List.mem_cons, List.not_mem_nil, or_false] at hline
        rcases hline with rfl | rfl <;> exact nomatch href
      · obtain ⟨r, hr, rfl⟩ := List.mem_map.mp hfunction
        refine ⟨r, Surface.mem_toList_iff_sections.mpr ⟨g, hg, hr⟩, ?_⟩
        unfold usesOf
        rw [hs.group_eq hg hr]
        exact href
  · simp only [List.mem_cons, List.not_mem_nil, or_false] at hlast
    rcases hlast with rfl | rfl <;> exact nomatch href

include hs in
/-- Every function has its type. -/
theorem function_mem_functionTypes {r : Record} (hr : r ∈ s.toList) :
    .function (functionType r.group r.name) r.returns (Signature.renderParameters r.parameters) ∈
      functionTypes s := by
  obtain ⟨g, hg, hrg⟩ := Surface.mem_toList_iff_sections.mp hr
  rw [hs.group_eq hg hrg]
  exact List.mem_flatMap.mpr ⟨g, hg, List.mem_append_right _ (List.mem_map.mpr ⟨r, hrg, rfl⟩)⟩

include hs in
/-- Every function has its field in the table of its group. -/
theorem exists_table_of_mem_toList {r : Record} (hr : r ∈ s.toList) :
    ∃ fields, .table (tableTag r.group) fields ∈ dispatchTables s ∧
      ⟨functionType r.group r.name, r.name⟩ ∈ fields := by
  obtain ⟨g, hg, hrg⟩ := Surface.mem_toList_iff_sections.mp hr
  rw [hs.group_eq hg hrg]
  exact ⟨tableFields g.1 g.2, List.mem_flatMap.mpr ⟨g, hg, by simp⟩, List.mem_map_of_mem hrg⟩

include hs in
/-- Every function is bound. -/
theorem bindFunction_mem_bindAll {r : Record} (hr : r ∈ s.toList) :
    bindFunction r.group r.name r.symbol ∈ bindAll s := by
  obtain ⟨g, hg, hrg⟩ := Surface.mem_toList_iff_sections.mp hr
  rw [hs.group_eq hg hrg]
  exact List.mem_flatMap.mpr ⟨g, hg, List.mem_append_right _ (List.mem_map.mpr ⟨r, hrg, rfl⟩)⟩

include hs in
/-- The group of a function is a group of the surface. -/
theorem group_mem_groupNames {r : Record} (hr : r ∈ s.toList) : r.group ∈ s.groupNames := by
  obtain ⟨g, hg, hrg⟩ := Surface.mem_toList_iff_sections.mp hr
  rw [hs.group_eq hg hrg]
  exact Surface.mem_groupNames_of_mem_sections hg

include hs in
/-- The function types introduce the type of every function. -/
theorem type_mem_introduces_functionTypes {r : Record} (hr : r ∈ s.toList) :
    .type (functionType r.group r.name) ∈ (functionTypes s).flatMap Item.introduces :=
  List.mem_flatMap.mpr ⟨_, function_mem_functionTypes hs hr, List.mem_singleton_self _⟩

/-- The tables introduce the struct of every group. -/
theorem type_mem_introduces_dispatchTables {group : String} (hgroup : group ∈ s.groupNames) :
    .type ("struct " ++ tableTag group) ∈ (dispatchTables s).flatMap Item.introduces := by
  rw [← map_fst_sections] at hgroup
  obtain ⟨g, hg, rfl⟩ := List.mem_map.mp hgroup
  have htable : .table (tableTag g.1) (tableFields g.1 g.2) ∈ dispatchTables s :=
    List.mem_flatMap.mpr ⟨g, hg, by simp⟩
  exact List.mem_flatMap.mpr ⟨_, htable, List.mem_cons_self⟩

include hs in
/-- The tables introduce the field of every function. -/
theorem field_mem_introduces_dispatchTables {r : Record} (hr : r ∈ s.toList) :
    .field (tableTag r.group) ⟨functionType r.group r.name, r.name⟩ ∈
      (dispatchTables s).flatMap Item.introduces := by
  obtain ⟨fields, htable, hfield⟩ := exists_table_of_mem_toList hs hr
  exact List.mem_flatMap.mpr ⟨_, htable, List.mem_cons_of_mem _ (List.mem_map_of_mem hfield)⟩

include hs in
/-- The tables refer to the types of all functions. -/
theorem refersTo_dispatchTables : (dispatchTables s).flatMap Item.refersTo =
    s.toList.map fun r => .type (functionType r.group r.name) := by
  rw [← hs.flatMap_sections fun group r => Reference.type (functionType group r.name),
    dispatchTables, List.flatMap_assoc]
  refine List.flatMap_congr fun g _ => ?_
  simp [tableFields, Item.refersTo, Function.comp_def]

/-- The struct that holds all tables introduces itself and a field for every group. -/
theorem introduces_rootAggregate (s : Surface) : (rootAggregate s).flatMap Item.introduces =
    .type ("struct " ++ rootTag) ::
      s.groupNames.map fun group => .field rootTag ⟨"struct " ++ tableTag group, group⟩ := by
  simp [rootAggregate, Item.introduces]

/-- The struct that holds all tables refers to the structs of the groups. -/
theorem refersTo_rootAggregate (s : Surface) : (rootAggregate s).flatMap Item.refersTo =
    s.groupNames.map fun group => .type ("struct " ++ tableTag group) := by
  simp [rootAggregate, Item.refersTo]

end Sections

/-- The declarations of a header before its tables. -/
def beforeTables (h : Header) : List Item :=
  preamble ++ entityAliases h.entities ++ functionTypes h.surface ++ eventTypes h.events ++
    [.line ""]

/-- The declarations before the tables refer to nothing. -/
theorem refersTo_beforeTables (h : Header) : (beforeTables h).flatMap Item.refersTo = [] := by
  have hpreamble : preamble.flatMap Item.refersTo = [] := by decide
  have hentities : (entityAliases h.entities).flatMap Item.refersTo = [] := by
    simp [entityAliases, List.flatMap_map, Item.refersTo]
  have hfunctions : (functionTypes h.surface).flatMap Item.refersTo = [] := by
    simp [functionTypes, List.flatMap_assoc, List.flatMap_map, Item.refersTo]
  have hevents : (eventTypes h.events).flatMap Item.refersTo = [] := by
    simp [eventTypes, eventItems, List.flatMap_assoc, Item.refersTo]
  simp [beforeTables, hpreamble, hentities, hfunctions, hevents, Item.refersTo]

/-- Items that refer to what is known are in order. -/
theorem inOrder_items {known : List Reference} {items : List Item}
    (h : items.flatMap Item.refersTo ⊆ known) : InOrder known (items.map .item) := by
  refine inOrder_of_known fun p hp ref href => ?_
  obtain ⟨item, hitem, rfl⟩ := List.mem_map.mp hp
  exact h (List.mem_flatMap.mpr ⟨item, hitem, href⟩)

/-- Items introduce as parts what they introduce. -/
theorem introduces_items (items : List Item) :
    (items.map Piece.item).flatMap Piece.introduces = items.flatMap Item.introduces := by
  rw [List.flatMap_map]
  rfl

/-- In a header with its mandatory function everything is introduced before it is referred to. -/
theorem inOrder_pieces {h : Header} (hs : h.surface.WellFormed) {record : Record}
    (hsentinel : h.surface.get? h.sentinel.group h.sentinel.name = some record) :
    InOrder [] (pieces h (program h.surface h.library h.sentinel record.symbol)) := by
  have hpieces : ∀ statements, pieces h statements = (beforeTables h).map .item ++
      (dispatchTables h.surface).map .item ++ (rootAggregate h.surface).map .item ++
        (.opening :: (statements.map .statement ++ (.closing :: footer.map .item))) := by
    intro statements
    simp [pieces, declarations, beforeTables]
  rw [hpieces, inOrder_append, inOrder_append, inOrder_append]
  simp only [List.flatMap_append, introduces_items, List.nil_append]
  refine ⟨⟨⟨?_, ?_⟩, ?_⟩, ?_⟩
  · refine inOrder_items ?_
    rw [refersTo_beforeTables]
    exact List.Subset.refl _
  · refine inOrder_items ?_
    rw [refersTo_dispatchTables hs]
    intro ref href
    obtain ⟨r, hr, rfl⟩ := List.mem_map.mp href
    have htype := type_mem_introduces_functionTypes hs hr
    simp [beforeTables, htype]
  · refine inOrder_items ?_
    rw [refersTo_rootAggregate]
    intro ref href
    obtain ⟨group, hmem, rfl⟩ := List.mem_map.mp href
    exact List.mem_append_right _ (type_mem_introduces_dispatchTables hmem)
  · -- The initializer introduces nothing, so that all it refers to has to be there before it.
    have huses : ∀ r ∈ h.surface.toList, ∀ ref ∈ usesOf r,
        ref ∈ (beforeTables h).flatMap Item.introduces ++
          (dispatchTables h.surface).flatMap Item.introduces ++
            (rootAggregate h.surface).flatMap Item.introduces := by
      intro r hr ref href
      simp only [usesOf, Slot.refersTo, List.mem_cons, List.not_mem_nil, or_false] at href
      rcases href with rfl | rfl | rfl
      · have htype := type_mem_introduces_functionTypes hs hr
        simp [beforeTables, htype]
      · rw [introduces_rootAggregate]
        exact List.mem_append_right _ (List.mem_cons_of_mem _
          (List.mem_map.mpr ⟨r.group, group_mem_groupNames hs hr, rfl⟩))
      · exact List.mem_append_left _ (List.mem_append_right _
          (field_mem_introduces_dispatchTables hs hr))
    refine inOrder_of_known fun p hp ref href => ?_
    rcases List.mem_cons.mp hp with rfl | hp
    · obtain rfl := List.mem_singleton.mp href
      rw [introduces_rootAggregate]
      exact List.mem_append_right _ List.mem_cons_self
    · rcases List.mem_append.mp hp with hstatement | hrest
      · obtain ⟨st, hst, rfl⟩ := List.mem_map.mp hstatement
        obtain ⟨r, hr, huse⟩ := exists_of_mem_refersTo_program hs hsentinel st hst ref href
        exact huses r hr ref huse
      · rcases List.mem_cons.mp hrest with rfl | hfooter
        · exact absurd href List.not_mem_nil
        · obtain ⟨item, hitem, rfl⟩ := List.mem_map.mp hfooter
          have hnone : ∀ item ∈ footer, item.refersTo = [] := by decide
          rw [Piece.refersTo, hnone item hitem] at href
          exact absurd href List.not_mem_nil

/-- The lines of a header for a function, from its type to the statement that binds it: the type,
the struct of its group with the field of the function, the struct that holds all tables with the
field of the group, the initializer and the assignment. -/
def linesOfFunction (r : Record) : List String := [
  "typedef " ++ r.returns ++ " (*" ++ functionType r.group r.name ++ ")(" ++
    Signature.renderParameters r.parameters ++ ");",
  "struct " ++ tableTag r.group ++ " \x7b",
  "    " ++ functionType r.group r.name ++ " " ++ r.name ++ ";",
  "struct " ++ rootTag ++ " \x7b",
  "    " ++ ("struct " ++ tableTag r.group) ++ " " ++ r.group ++ ";",
  "static bool omp_initialize_capi(struct " ++ rootTag ++ "* ompapi) \x7b",
  "    " ++ Slot.text ⟨r.group, r.name⟩ ++ " = (" ++ functionType r.group r.name ++
    ")LIBRARY_GET_ADDR(capi_lib, \"" ++ r.symbol ++ "\");"]

/-- A struct is opened before the line of any of its fields. -/
theorem sublist_lines_table {tag : String} {fields : List Field} {f : Field} (hf : f ∈ fields) :
    ["struct " ++ tag ++ " \x7b", "    " ++ f.type ++ " " ++ f.name ++ ";"].Sublist
      (Item.table tag fields).lines := by
  have hline : "    " ++ f.type ++ " " ++ f.name ++ ";" ∈
      fields.map fun f => "    " ++ f.type ++ " " ++ f.name ++ ";" :=
    List.mem_map.mpr ⟨f, hf, rfl⟩
  refine List.Sublist.cons_cons _ ?_
  exact (List.singleton_sublist.mpr hline).trans (List.sublist_append_left _ _)

/-- The lines of an item stand in those of all items. -/
theorem sublist_linesOf {items : List Item} {item : Item} (hitem : item ∈ items) :
    item.lines.Sublist (linesOf items) := by
  rw [linesOf, List.flatMap_def]
  exact List.sublist_flatten_of_mem (List.mem_map_of_mem hitem)

/-- The lines of each function come in a header in their order. -/
theorem sublist_linesOfFunction {h : Header} (hs : h.surface.WellFormed) {sentinel : Slot}
    {symbol : String} {r : Record} (hr : r ∈ h.surface.toList) :
    (linesOfFunction r).Sublist (linesOf h.declarations ++
      functionLines (program h.surface h.library sentinel symbol) ++ linesOf footer) := by
  have hfunction : .function (functionType r.group r.name) r.returns
      (Signature.renderParameters r.parameters) ∈ beforeTables h := by
    simp [beforeTables, function_mem_functionTypes hs hr]
  have htypeLine := sublist_linesOf hfunction
  obtain ⟨fields, htable, hfield⟩ := exists_table_of_mem_toList hs hr
  have hfieldLines := (sublist_lines_table hfield).trans (sublist_linesOf htable)
  have hroot : .table rootTag (h.surface.groupNames.map fun group =>
      ⟨"struct " ++ tableTag group, group⟩) ∈ rootAggregate h.surface := by
    simp [rootAggregate]
  have hgroupLines := (sublist_lines_table (List.mem_map.mpr
    ⟨r.group, group_mem_groupNames hs hr, rfl⟩)).trans (sublist_linesOf hroot)
  have hbind : ["static bool omp_initialize_capi(struct " ++ rootTag ++ "* ompapi) \x7b",
      "    " ++ Slot.text ⟨r.group, r.name⟩ ++ " = (" ++ functionType r.group r.name ++
        ")LIBRARY_GET_ADDR(capi_lib, \"" ++ r.symbol ++ "\");"].Sublist
          (functionLines (program h.surface h.library sentinel symbol)) := by
    have hstatement : bindFunction r.group r.name r.symbol ∈
        program h.surface h.library sentinel symbol :=
      List.mem_append_left _ (List.mem_append_right _ (bindFunction_mem_bindAll hs hr))
    have hopening := List.sublist_cons_self ""
      ["static bool omp_initialize_capi(struct " ++ rootTag ++ "* ompapi) \x7b"]
    have hassignment : (bindFunction r.group r.name r.symbol).lines.Sublist
        ((program h.surface h.library sentinel symbol).flatMap Statement.lines) := by
      rw [List.flatMap_def]
      exact List.sublist_flatten_of_mem (List.mem_map_of_mem hstatement)
    exact (hopening.append hassignment).trans (List.sublist_append_left _ _)
  have hdeclarations : linesOf h.declarations = linesOf (beforeTables h) ++
      linesOf (dispatchTables h.surface) ++ linesOf (rootAggregate h.surface) := by
    simp [linesOf, declarations, beforeTables]
  rw [hdeclarations]
  exact (((htypeLine.append hfieldLines).append hgroupLines).append hbind).trans
    (List.sublist_append_left _ _)

/-- The sections of a header refer to each other without a gap. -/
structure Gapless (h : Header) (statements : List Statement) (text : String) : Prop where
  /-- The function types introduce the names of all functions in order. -/
  typeNames_eq : typeNames (functionTypes h.surface) = functionNames h.surface
  /-- The fields of the tables have these types in the same order. -/
  fieldTypes_eq : (declaredFields (dispatchTables h.surface)).map (fun f => f.2.type) =
    functionNames h.surface
  /-- The initializer casts to these types in the same order, after its check. -/
  casts_eq : (assignedFields (afterCheck statements)).map (fun f => f.2.type) =
    functionNames h.surface
  /-- There are as many names as functions. -/
  length_eq : (functionNames h.surface).length = h.surface.size
  /-- No name is there twice. -/
  nodup : (functionNames h.surface).Nodup
  /-- What is assigned beside a cast is the field that the table of its group declares with that
  type. -/
  assigned_eq : assignedFields (afterCheck statements) = declaredFields (dispatchTables h.surface)
  /-- The function types stand under the groups in order. -/
  typeGroups_eq : titles "// " " function type definitions"
    ((functionTypes h.surface).filterMap Item.text?) = h.surface.groupNames
  /-- The tables stand under the groups in the same order. -/
  tableGroups_eq : titles "// " " functions" ((dispatchTables h.surface).filterMap Item.text?) =
    h.surface.groupNames
  /-- They are the tables of the groups. -/
  tableTags_eq : tags (dispatchTables h.surface) = h.surface.groupNames.map tableTag
  /-- The struct that holds all tables has a field for each group in the same order, which is the
  table of the group. -/
  rootFields_eq : declaredFields (rootAggregate h.surface) =
    h.surface.groupNames.map fun group => (rootTag, ⟨"struct " ++ tableTag group, group⟩)
  /-- The initializer goes along the groups in the same order. -/
  bindGroups_eq : titles "    // Retrieve " " functions"
    ((afterCheck statements).filterMap Statement.text?) = h.surface.groupNames
  /-- The text is written in the lines of the parts. -/
  text_eq : text = "\n".intercalate ((pieces h statements).flatMap Piece.lines) ++ "\n"
  /-- The lines of each function come in the text in their order. -/
  linesOfFunctions : ∀ r ∈ h.surface.toList,
    (linesOfFunction r).Sublist ((pieces h statements).flatMap Piece.lines)
  /-- What a part refers to is introduced by a part before it. -/
  introduced : ∀ before p after, pieces h statements = before ++ p :: after →
    ∀ ref ∈ p.refersTo, ref ∈ before.flatMap Piece.introduces

/-- The header of a scanned surface with the mandatory function is written, and its sections refer
to each other without a gap. -/
theorem sections_refer_without_gap {t : FileTree} {root : Path} {suffix marker : String}
    {duplicates : Duplicates} {h : Header}
    (hscan : (Scan.surface t root ⟨suffix, ⟨.header, false, marker⟩, duplicates⟩).result =
      .ok h.surface)
    (hsentinel : h.surface.contains h.sentinel.group h.sentinel.name = true) :
    ∃ statements text, h.statements = .ok statements ∧ h.render = .ok text ∧
      Gapless h statements text := by
  have hcut := Scan.cutFromLines_of_surface hscan
  have hs := hcut.wellFormed
  obtain ⟨record, hrecord⟩ := Option.isSome_iff_exists.mp hsentinel
  have hget : h.surface.get? h.sentinel.group h.sentinel.name = some record := hrecord
  have hstatements : h.statements =
      .ok (program h.surface h.library h.sentinel record.symbol) := by
    unfold statements initializer
    rw [hget]
  have hfields : (functionFields h.surface).map (fun f => f.2.type) = functionNames h.surface := by
    simp [functionFields, functionNames, tableField]
  have hdeclared := declaredFields_dispatchTables hs
  have hassigned := assignedFields_program hs h.library h.sentinel record.symbol
  refine ⟨_, _, hstatements, ?_, {
    typeNames_eq := typeNames_functionTypes hs
    fieldTypes_eq := by rw [hdeclared, hfields]
    casts_eq := by rw [hassigned, hfields]
    length_eq := length_functionNames h.surface
    nodup := nodup_functionNames hcut
    assigned_eq := hassigned.trans hdeclared.symm
    typeGroups_eq := titles_functionTypes h.surface
    tableGroups_eq := titles_dispatchTables h.surface
    tableTags_eq := tags_dispatchTables h.surface
    rootFields_eq := ?_
    bindGroups_eq := titles_program h.surface h.library h.sentinel record.symbol
    text_eq := rfl
    linesOfFunctions := fun r hr => by
      rw [lines_pieces]
      exact sublist_linesOfFunction hs hr
    introduced := fun before p after hpieces => (inOrder_pieces hs hget).mem_introduces hpieces }⟩
  · rw [render, lines, hstatements, lines_pieces]
    rfl
  · simp [declaredFields, rootAggregate]

/-- A tree with one source, in which the second annotation of a function replaces the first one and
the name of another function has an underscore. -/
def replacingTree : FileTree := ⟨[(["CoreAPIs.cpp"], .file (Utf8.encode
  ("OMP_CAPI(Core_TickCount, uint32_t())\n" ++
    "OMP_CAPI(Player_SetPos_FindZ, bool(objectPtr player, float x))\n" ++
    "OMP_CAPI(Core_TickCount, int())\n")))], []⟩

/-- The header of the surface of this tree. -/
def replacingHeader : Header where
  surface := (Surface.empty.put
    ⟨"Core", "TickCount", "int", [], "Core_TickCount", some ⟨"CoreAPIs.cpp", 3⟩⟩).put
      ⟨"Player", "SetPos_FindZ", "bool", [⟨"void*", "player"⟩, ⟨"float", "x"⟩],
        "Player_SetPos_FindZ", some ⟨"CoreAPIs.cpp", 2⟩⟩
  events := .empty

/-- The header of two groups has its sections in agreement, and these are the names. -/
theorem sections_refer_in_replacingHeader :
    (Scan.surface replacingTree ⟨.here, []⟩ ⟨"APIs.cpp", ⟨.header, false, Signature.marker⟩,
      .replace⟩).result = .ok replacingHeader.surface ∧
    replacingHeader.surface.contains replacingHeader.sentinel.group
      replacingHeader.sentinel.name = true ∧
    functionNames replacingHeader.surface = ["Core_TickCount_t", "Player_SetPos_FindZ_t"] ∧
    ∃ statements text, replacingHeader.statements = .ok statements ∧
      replacingHeader.render = .ok text ∧ Gapless replacingHeader statements text := by
  have hscan : (Scan.surface replacingTree ⟨.here, []⟩ ⟨"APIs.cpp",
      ⟨.header, false, Signature.marker⟩, .replace⟩).result.toOption =
        some replacingHeader.surface := by
    decide +kernel
  have hcontains : replacingHeader.surface.contains replacingHeader.sentinel.group
      replacingHeader.sentinel.name = true := by
    decide
  have hok := Logged.eq_ok_of_toOption hscan
  exact ⟨hok, hcontains, by decide +kernel, sections_refer_without_gap hok hcontains⟩

end Header

end Bindery
