import Bindery.Proofs.Header.Names
import Bindery.Proofs.Header.Reading

/-!
# What the text of a header defines

The text of a header is read back line by line: a tag is defined where a brace opens after a
keyword and a name, on the same line or on the next one, and a type name is defined by a line that
begins with `typedef`. Of items whose lines can be read back this finds the tags and type names that
they define.
-/

namespace Bindery.Header

/-- The lines of a text: what stands between its line feeds. -/
def linesOfText (text : String) : List String :=
  (Text.fields '\n' text.toList).map String.ofList

/-- The tag that is defined by what follows a keyword: a brace opens after it, or on the next line.
-/
def readTag? (text : List Char) (next : Option String) : Option String :=
  match Text.cutAt? [' '] text with
  | some (tag, after) => if after = ['\x7b'] then some (String.ofList tag) else none
  | none => if next = some "\x7b" then some (String.ofList text) else none

/-- What follows the keyword of a struct or an enumeration. -/
def afterKeyword? (line : String) : Option (List Char) :=
  (Text.dropFront? "struct ".toList line.toList).or (Text.dropFront? "enum ".toList line.toList)

/-- The struct and enum tags that some lines define, in order. -/
def readTags : List String → List String
  | [] => []
  | line :: rest =>
    ((afterKeyword? line).bind fun text => readTag? text rest.head?).toList ++ readTags rest

/-- The type name that a line defines, for a pointer to a function or for an untyped pointer. -/
def readTypeName? (line : String) : Option String :=
  (Text.dropFront? "typedef ".toList line.toList).bind fun text =>
    match Text.cutAt? ['(', '*'] text with
    | some (_, rest) => (Text.cutAt? [')'] rest).map fun (name, _) => String.ofList name
    | none =>
      (Text.dropFront? "void* ".toList text).bind fun rest =>
        (Text.cutAt? [';'] rest).map fun (name, _) => String.ofList name

/-- The type names that some lines define, in order. -/
def readTypeNames (lines : List String) : List String := lines.filterMap readTypeName?

/-- Lines in a row define their type names in a row. -/
theorem readTypeNames_append (a b : List String) :
    readTypeNames (a ++ b) = readTypeNames a ++ readTypeNames b := List.filterMap_append

/-- A text in which a line feed ends each of some lines has these lines, and nothing after them. -/
theorem linesOfText_intercalate {lines : List String} (hne : lines ≠ [])
    (h : ∀ line ∈ lines, '\n' ∉ line.toList) :
    linesOfText ("\n".intercalate lines ++ "\n") = lines ++ [""] := by
  have hfields : Text.fields '\n' (['\n'].intercalate (lines.map String.toList) ++ ['\n']) =
      lines.map String.toList ++ [[]] := by
    induction lines with
    | nil => exact absurd rfl hne
    | cons line lines ih =>
      obtain ⟨hline, hlines⟩ := List.forall_mem_cons.mp h
      cases lines with
      | nil => simpa [Text.fields] using Text.fields_append_cons hline []
      | cons next lines =>
        have hrest := ih (List.cons_ne_nil next lines) hlines
        rw [List.map_cons, List.map_cons, List.intercalate_cons_cons, List.append_assoc,
          List.append_assoc, List.singleton_append, Text.fields_append_cons hline]
        exact congrArg (line.toList :: ·) hrest
  have htext : ("\n".intercalate lines ++ "\n").toList =
      ['\n'].intercalate (lines.map String.toList) ++ ['\n'] := by
    rw [String.toList_append, String.toList_intercalate]
    rfl
  rw [linesOfText, htext, hfields]
  simp [Function.comp_def]

/-- A line begins with no keyword of a definition. -/
def Idle (line : String) : Prop :=
  ∀ front ∈ ["struct ", "enum ", "typedef "], ¬front.toList <+: line.toList

instance (line : String) : Decidable (Idle line) :=
  inferInstanceAs (Decidable (∀ front ∈ ["struct ", "enum ", "typedef "],
    ¬front.toList <+: line.toList))

section Lines

variable {line : String}

/-- The first character tells that a line is idle. -/
theorem idle_of_head (h : line.toList.head? ∉ [some 's', some 'e', some 't']) : Idle line := by
  intro front hfront hprefix
  obtain ⟨rest, hrest⟩ := hprefix
  simp only [List.mem_cons, List.not_mem_nil, or_false] at hfront
  rw [← hrest] at h
  rcases hfront with rfl | rfl | rfl <;> simp at h

/-- An idle line has no keyword. -/
theorem Idle.afterKeyword?_eq_none (h : Idle line) : afterKeyword? line = none := by
  have hstruct : Text.dropFront? "struct ".toList line.toList = none :=
    Text.dropFront?_eq_none_iff.mpr (h _ (by simp))
  have henum : Text.dropFront? "enum ".toList line.toList = none :=
    Text.dropFront?_eq_none_iff.mpr (h _ (by simp))
  rw [afterKeyword?, hstruct, henum, Option.or_none]

/-- An idle line defines no type name. -/
theorem Idle.readTypeName?_eq_none (h : Idle line) : readTypeName? line = none := by
  have htypedef : Text.dropFront? "typedef ".toList line.toList = none :=
    Text.dropFront?_eq_none_iff.mpr (h _ (by simp))
  rw [readTypeName?, htypedef, Option.bind_none]

/-- A line without a keyword defines no tag. -/
theorem readTags_cons_of_afterKeyword? (h : afterKeyword? line = none) (rest : List String) :
    readTags (line :: rest) = readTags rest := by
  rw [readTags, h, Option.bind_none, Option.toList_none, List.nil_append]

/-- Idle lines define no tags. -/
theorem readTags_idle_append {lines : List String} (h : ∀ line ∈ lines, Idle line)
    (rest : List String) : readTags (lines ++ rest) = readTags rest := by
  induction lines with
  | nil => rfl
  | cons line lines ih =>
    obtain ⟨hline, hlines⟩ := List.forall_mem_cons.mp h
    rw [List.cons_append, readTags_cons_of_afterKeyword? hline.afterKeyword?_eq_none, ih hlines]

/-- Idle lines define no type names. -/
theorem readTypeNames_idle {lines : List String} (h : ∀ line ∈ lines, Idle line) :
    readTypeNames lines = [] :=
  List.filterMap_eq_nil_iff.mpr fun line hline => (h line hline).readTypeName?_eq_none

end Lines

section Definitions

variable {name returns : String}

/-- What follows the keyword of a struct. -/
theorem afterKeyword?_struct (text : String) :
    afterKeyword? ("struct " ++ text) = some text.toList := by
  rw [afterKeyword?, String.toList_append, Text.dropFront?_append, Option.some_or]

/-- What follows the keyword of an enumeration. -/
theorem afterKeyword?_enum (text : String) :
    afterKeyword? ("enum " ++ text) = some text.toList := by
  have hstruct : ¬"struct ".toList <+: ("enum " ++ text).toList := by simp
  rw [afterKeyword?, Text.dropFront?_eq_none_iff.mpr hstruct, Option.none_or, String.toList_append,
    Text.dropFront?_append]

/-- A tag whose brace opens on the same line. -/
theorem readTag?_brace (hname : ' ' ∉ name.toList) (next : Option String) :
    readTag? (name ++ " \x7b").toList next = some name := by
  have hcut : Text.cutAt? [' '] (name ++ " \x7b").toList = some (name.toList, ['\x7b']) :=
    Text.cutAt?_singleton_eq_some_iff.mpr ⟨by simp, hname⟩
  rw [readTag?, hcut]
  dsimp only
  rw [if_pos rfl, String.ofList_toList]

/-- A tag whose brace opens on the next line. -/
theorem readTag?_next (hname : ' ' ∉ name.toList) :
    readTag? name.toList (some "\x7b") = some name := by
  rw [readTag?, Text.cutAt?_eq_none_of_not_mem hname]
  dsimp only
  rw [if_pos rfl, String.ofList_toList]

/-- A line that begins with another keyword defines no tag. -/
theorem afterKeyword?_typedef (text : String) : afterKeyword? ("typedef " ++ text) = none := by
  have hstruct : ¬"struct ".toList <+: ("typedef " ++ text).toList := by simp
  have henum : ¬"enum ".toList <+: ("typedef " ++ text).toList := by simp
  rw [afterKeyword?, Text.dropFront?_eq_none_iff.mpr hstruct, Option.none_or,
    Text.dropFront?_eq_none_iff.mpr henum]

/-- The line of a struct's tag defines no type name. -/
theorem readTypeName?_struct (text : String) : readTypeName? ("struct " ++ text) = none := by
  have htypedef : ¬"typedef ".toList <+: ("struct " ++ text).toList := by simp
  rw [readTypeName?, Text.dropFront?_eq_none_iff.mpr htypedef, Option.bind_none]

/-- The line of an enumeration's tag defines no type name. -/
theorem readTypeName?_enum (text : String) : readTypeName? ("enum " ++ text) = none := by
  have htypedef : ¬"typedef ".toList <+: ("enum " ++ text).toList := by simp
  rw [readTypeName?, Text.dropFront?_eq_none_iff.mpr htypedef, Option.bind_none]

/-- The line of a function type defines its name. -/
theorem readTypeName?_function (hname : ')' ∉ name.toList) (hreturns : '(' ∉ returns.toList)
    (parameters : String) :
    readTypeName? ("typedef " ++ (returns ++ " (*" ++ name ++ ")(" ++ parameters ++ ");")) =
      some name := by
  have hline : ("typedef " ++ (returns ++ " (*" ++ name ++ ")(" ++ parameters ++ ");")).toList =
      "typedef ".toList ++ (returns.toList ++ [' '] ++ '(' :: '*' :: (name.toList ++ ')' ::
        ("(" ++ parameters ++ ");").toList)) := by
    simp
  have hpointer := fun rest => (Text.cutAt?_pair_eq_some_iff (by decide : '(' ≠ '*')).mpr
    ⟨(rfl : returns.toList ++ [' '] ++ '(' :: '*' :: rest = _), fun hinfix => by
      have hmem : '(' ∈ returns.toList ++ [' '] := hinfix.subset List.mem_cons_self
      simp [hreturns] at hmem⟩
  have hend := fun rest => Text.cutAt?_singleton_eq_some_iff.mpr
    ⟨(rfl : name.toList ++ ')' :: rest = _), hname⟩
  rw [readTypeName?, hline, Text.dropFront?_append, Option.bind_some, hpointer]
  dsimp only
  rw [hend, Option.map_some, String.ofList_toList]

/-- The line of an untyped pointer defines its name. -/
theorem readTypeName?_handle (hname : '(' ∉ name.toList) (hend : ';' ∉ name.toList) :
    readTypeName? ("typedef " ++ ("void* " ++ name ++ ";")) = some name := by
  have hline : ("typedef " ++ ("void* " ++ name ++ ";")).toList =
      "typedef ".toList ++ ("void* ".toList ++ (name.toList ++ [';'])) := by
    simp
  have hparen : '(' ∉ "void* ".toList ++ (name.toList ++ [';']) := by
    simp [hname]
  have hcut : Text.cutAt? [';'] (name.toList ++ [';']) = some (name.toList, []) :=
    Text.cutAt?_singleton_eq_some_iff.mpr ⟨rfl, hend⟩
  rw [readTypeName?, hline, Text.dropFront?_append, Option.bind_some,
    Text.cutAt?_eq_none_of_not_mem hparen]
  dsimp only
  rw [Text.dropFront?_append, Option.bind_some, hcut, Option.map_some, String.ofList_toList]

end Definitions

namespace Item

/-- An item whose lines can be read back. -/
def Legible : Item → Prop
  | .line text => Idle text
  | .enumeration tag _ | .record tag _ | .arguments tag _ | .table tag _ => isIdentifier tag = true
  | .handle name => isIdentifier name = true
  | .function name returns _ => isIdentifier name = true ∧ '(' ∉ returns.toList

instance : (item : Item) → Decidable item.Legible
  | .line text => inferInstanceAs (Decidable (Idle text))
  | .enumeration tag _ | .record tag _ | .arguments tag _ | .table tag _ =>
    inferInstanceAs (Decidable (isIdentifier tag = true))
  | .handle name => inferInstanceAs (Decidable (isIdentifier name = true))
  | .function name returns _ =>
    inferInstanceAs (Decidable (isIdentifier name = true ∧ '(' ∉ returns.toList))

/-- The line with the name that an item defines. -/
def heading : Item → List String
  | .line _ => []
  | .enumeration tag _ => ["enum " ++ tag]
  | .record tag _ => ["struct " ++ tag]
  | .handle name => ["typedef " ++ ("void* " ++ name ++ ";")]
  | .function name returns parameters =>
    ["typedef " ++ (returns ++ " (*" ++ name ++ ")(" ++ parameters ++ ");")]
  | .arguments tag _ | .table tag _ => ["struct " ++ (tag ++ " \x7b")]

/-- The other lines of an item. -/
def body : Item → List String
  | .line text => [text]
  | .enumeration _ values => "\x7b" :: values.map (fun v => "\t" ++ v ++ ",") ++ ["\x7d;"]
  | .record _ fields => "\x7b" :: fields.map ("\t" ++ ·) ++ ["\x7d;"]
  | .handle _ | .function .. => []
  | .arguments _ fields =>
    ["    int size;", "    struct \x7b"] ++
      (if fields.isEmpty then [""]
        else fields.map fun f => "        " ++ f.type ++ "* " ++ f.name ++ ";") ++
      ["    \x7d *list;", "\x7d;"]
  | .table _ fields =>
    fields.map (fun f => "    " ++ f.type ++ " " ++ f.name ++ ";") ++ ["\x7d;"]

/-- The line with the name comes first. -/
theorem lines_eq (item : Item) : item.lines = item.heading ++ item.body := by
  cases item with
  | handle name => simp [lines, heading, body, ← String.toList_inj]
  | _ => simp [lines, heading, body, String.append_assoc]

/-- The other lines define nothing. -/
theorem idle_body {item : Item} (h : item.Legible) : ∀ line ∈ item.body, Idle line := by
  intro line hline
  cases item with
  | line text =>
    rw [List.mem_singleton.mp hline]
    exact h
  | enumeration tag values =>
    simp only [body, List.mem_cons, List.mem_append, List.mem_map, List.not_mem_nil, or_false]
      at hline
    rcases hline with (rfl | ⟨v, -, rfl⟩) | rfl
    · decide
    · exact idle_of_head (by simp)
    · decide
  | record tag fields =>
    simp only [body, List.mem_cons, List.mem_append, List.mem_map, List.not_mem_nil, or_false]
      at hline
    rcases hline with (rfl | ⟨v, -, rfl⟩) | rfl
    · decide
    · exact idle_of_head (by simp)
    · decide
  | handle name => exact absurd hline List.not_mem_nil
  | function name returns parameters => exact absurd hline List.not_mem_nil
  | arguments tag fields =>
    have hfields : ∀ line ∈ (if fields.isEmpty then [""]
        else fields.map fun f => "        " ++ f.type ++ "* " ++ f.name ++ ";"), Idle line := by
      intro line hline
      split at hline
      · rw [List.mem_singleton.mp hline]
        decide
      · obtain ⟨f, -, rfl⟩ := List.mem_map.mp hline
        exact idle_of_head (by simp)
    rcases List.mem_append.mp hline with hfirst | hlast
    · rcases List.mem_append.mp hfirst with hopen | hfield
      · have hfixed : ∀ line ∈ ["    int size;", "    struct \x7b"], Idle line := by decide
        exact hfixed line hopen
      · exact hfields line hfield
    · have hfixed : ∀ line ∈ ["    \x7d *list;", "\x7d;"], Idle line := by decide
      exact hfixed line hlast
  | table tag fields =>
    simp only [body, List.mem_append, List.mem_map, List.mem_singleton] at hline
    rcases hline with ⟨f, -, rfl⟩ | rfl
    · exact idle_of_head (by simp)
    · decide

/-- The line with the name defines the tag of a legible item, if it has one. -/
theorem readTags_heading {item : Item} (h : item.Legible) (rest : List String) :
    readTags (item.heading ++ (item.body ++ rest)) =
      item.tag?.toList ++ readTags (item.body ++ rest) := by
  have hblank : ∀ {tag : String}, isIdentifier tag = true → ' ' ∉ tag.toList :=
    fun htag => not_mem_of_isIdentifier htag (by decide)
  cases item with
  | line text => rfl
  | enumeration tag values =>
    have hread := readTag?_next (hblank h)
    simp [heading, body, readTags, afterKeyword?_enum, hread, tag?]
  | record tag fields =>
    have hread := readTag?_next (hblank h)
    simp [heading, body, readTags, afterKeyword?_struct, hread, tag?]
  | handle name => exact readTags_cons_of_afterKeyword? (afterKeyword?_typedef _) _
  | function name returns parameters =>
    exact readTags_cons_of_afterKeyword? (afterKeyword?_typedef _) _
  | arguments tag fields =>
    rw [heading, List.singleton_append, readTags, afterKeyword?_struct, Option.bind_some,
      readTag?_brace (hblank h)]
    rfl
  | table tag fields =>
    rw [heading, List.singleton_append, readTags, afterKeyword?_struct, Option.bind_some,
      readTag?_brace (hblank h)]
    rfl

/-- The line with the name defines the type name of a legible item, if it has one. -/
theorem readTypeNames_heading {item : Item} (h : item.Legible) :
    readTypeNames item.heading = item.typeName?.toList := by
  unfold readTypeNames
  cases item with
  | line text => rfl
  | enumeration tag values => simp [heading, readTypeName?_enum, typeName?]
  | record tag fields => simp [heading, readTypeName?_struct, typeName?]
  | handle name =>
    have hparen : '(' ∉ name.toList := not_mem_of_isIdentifier h (by decide)
    have hend : ';' ∉ name.toList := not_mem_of_isIdentifier h (by decide)
    simp [heading, readTypeName?_handle hparen hend, typeName?]
  | function name returns parameters =>
    have hparen : ')' ∉ name.toList := not_mem_of_isIdentifier h.1 (by decide)
    simp [heading, readTypeName?_function hparen h.2, typeName?]
  | arguments tag fields => simp [heading, readTypeName?_struct, typeName?]
  | table tag fields => simp [heading, readTypeName?_struct, typeName?]

end Item

/-- The lines of legible items define their tags. -/
theorem readTags_linesOf {items : List Item} (h : ∀ item ∈ items, item.Legible)
    (rest : List String) : readTags (linesOf items ++ rest) = tags items ++ readTags rest := by
  induction items with
  | nil => rfl
  | cons item items ih =>
    obtain ⟨hitem, hitems⟩ := List.forall_mem_cons.mp h
    have htags : tags (item :: items) = item.tag?.toList ++ tags items := by
      cases htag : item.tag? <;> simp [tags, htag]
    rw [linesOf, List.flatMap_cons, item.lines_eq, List.append_assoc, List.append_assoc,
      Item.readTags_heading hitem, readTags_idle_append (Item.idle_body hitem), htags,
      List.append_assoc]
    exact congrArg (item.tag?.toList ++ ·) (ih hitems)

/-- The lines of legible items define their type names. -/
theorem readTypeNames_linesOf {items : List Item} (h : ∀ item ∈ items, item.Legible) :
    readTypeNames (linesOf items) = typeNames items := by
  induction items with
  | nil => rfl
  | cons item items ih =>
    obtain ⟨hitem, hitems⟩ := List.forall_mem_cons.mp h
    have hnames : typeNames (item :: items) = item.typeName?.toList ++ typeNames items := by
      cases hname : item.typeName? <;> simp [typeNames, hname]
    rw [linesOf, List.flatMap_cons, item.lines_eq, readTypeNames_append, readTypeNames_append,
      Item.readTypeNames_heading hitem, readTypeNames_idle (Item.idle_body hitem), hnames,
      List.append_nil]
    exact congrArg (item.typeName?.toList ++ ·) (ih hitems)

end Bindery.Header
