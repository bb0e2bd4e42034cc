import Bindery.Header.Program
import Bindery.Proofs.Text.Cut

/-!
# Reading an initializer as it is written

The lines of an initializer are read back as statements, the way a compiler for its few forms
would. A field is written with an arrow and a dot and ends where its name ends, so this needs names
that are identifiers. What the lines of legible statements say is these statements, apart from the
opening of the library, which is left as lines.
-/

namespace Bindery.Header

/-- A character of an identifier. -/
def isWordChar (c : Char) : Bool := c.isAlphanum || c == '_'

/-- Whether a text is an identifier of C. -/
def isIdentifier (s : String) : Bool :=
  !s.toList.isEmpty && !(s.toList.headD '0').isDigit && s.toList.all isWordChar

/-- The slot at the front of a text, where a character ends it, and what follows that. -/
def readSlot? (ending : Char) (text : List Char) : Option (Slot × List Char) :=
  (Text.dropFront? "ompapi->".toList text).bind fun rest =>
  (Text.cutAt? ['.'] rest).bind fun (group, rest) =>
  (Text.cutAt? [ending] rest).map fun (name, rest) =>
    (⟨String.ofList group, String.ofList name⟩, rest)

/-- The statement that binds a slot, without the blanks in front. -/
def readBind? (text : List Char) : Option Statement :=
  (readSlot? ' ' text).bind fun (slot, rest) =>
  (Text.dropFront? "= (".toList rest).bind fun rest =>
  (Text.cutAt? [')'] rest).bind fun (cast, rest) =>
  (Text.dropFront? "LIBRARY_GET_ADDR(capi_lib, \"".toList rest).bind fun rest =>
  (Text.cutAt? ['"'] rest).bind fun (symbol, rest) =>
    if rest = ");".toList then some (.bind slot (String.ofList cast) (String.ofList symbol))
    else none

/-- The statement that a test which returns false stands for, by the line of the test. -/
def readGuard? (line : String) : Option Statement :=
  (Text.dropFront? "    if (!".toList line.toList).bind fun rest =>
    if rest = "capi_lib)".toList then some .requireLibrary
    else (readSlot? ')' rest).bind fun (slot, rest) =>
      if rest = [] then some (.requireSlot slot) else none

/-- What a line that does nothing starts with, if it is not blank: a comment, a directive, or the
opening of the library. -/
def idleFronts : List String := ["    //", "#", "    void* capi_lib = LIBRARY_OPEN("]

/-- The statement of one line. -/
def readLine? (line : String) : Option Statement :=
  if line = "" ∨ ∃ front ∈ idleFronts, front.toList <+: line.toList then some (.line line)
  else if line = "    return true;" then some .succeed
  else (Text.dropFront? "    ".toList line.toList).bind readBind?

/-- The lines that follow the line of a test which returns false. -/
def guardBlock : List String := ["    \x7b", "        return false;", "    \x7d"]

/-- The statements of some lines. -/
def readBody? : List String → Option (List Statement)
  | [] => some []
  | line :: rest =>
    match readGuard? line, rest with
    | some s, a :: b :: c :: rest =>
      if [a, b, c] = guardBlock then (readBody? rest).map (s :: ·) else none
    | some _, _ => none
    | none, rest => (readLine? line).bind fun s => (readBody? rest).map (s :: ·)

/-- The statements of the function that fills the tables. -/
def readFunction? : List String → Option (List Statement)
  | blank :: head :: rest =>
    if blank = "" ∧ head = "static bool omp_initialize_capi(struct OMPAPI_t* ompapi) \x7b" ∧
      rest.getLast? = some "\x7d;" then readBody? rest.dropLast else none
  | _ => none

/-- A character that no identifier has stands in none. -/
theorem not_mem_of_isIdentifier {s : String} (h : isIdentifier s = true) {c : Char}
    (hc : isWordChar c = false) : c ∉ s.toList := by
  intro hmem
  unfold isIdentifier at h
  rw [Bool.and_eq_true, List.all_eq_true] at h
  have hword := h.2 c hmem
  rw [hc] at hword
  exact Bool.noConfusion hword

/-- No parenthesis stands in the name of the function type of two identifiers. -/
theorem paren_not_mem_functionType {group name : String} (hg : isIdentifier group = true)
    (hn : isIdentifier name = true) : ')' ∉ (functionType group name).toList := by
  have hgroup : ')' ∉ group.toList := not_mem_of_isIdentifier hg (by decide)
  have hname : ')' ∉ name.toList := not_mem_of_isIdentifier hn (by decide)
  simp [functionType, hgroup, hname]

/-- A slot of identifiers is read back, up to a character that ends it. -/
theorem readSlot?_text {slot : Slot} (hg : isIdentifier slot.group = true)
    (hn : isIdentifier slot.name = true) {ending : Char} (hending : isWordChar ending = false)
    (rest : List Char) :
    readSlot? ending (slot.text.toList ++ ending :: rest) = some (slot, rest) := by
  have hgroup :
      Text.cutAt? ['.'] (slot.group.toList ++ '.' :: (slot.name.toList ++ ending :: rest)) =
        some (slot.group.toList, slot.name.toList ++ ending :: rest) :=
    Text.cutAt?_singleton_eq_some_iff.mpr ⟨rfl, not_mem_of_isIdentifier hg (by decide)⟩
  have hname : Text.cutAt? [ending] (slot.name.toList ++ ending :: rest) =
      some (slot.name.toList, rest) :=
    Text.cutAt?_singleton_eq_some_iff.mpr ⟨rfl, not_mem_of_isIdentifier hn hending⟩
  have htext : slot.text.toList ++ ending :: rest = "ompapi->".toList ++
      (slot.group.toList ++ '.' :: (slot.name.toList ++ ending :: rest)) := by
    unfold Slot.text
    rw [String.toList_append, String.toList_append, String.toList_append, List.append_assoc,
      List.append_assoc, List.append_assoc]
    rfl
  rw [htext, readSlot?, Text.dropFront?_append, Option.bind_some, hgroup, Option.bind_some]
  dsimp only
  rw [hname, Option.map_some, String.ofList_toList, String.ofList_toList]

/-- The line that binds a slot. -/
def bindLine (slot : Slot) (cast symbol : String) : String :=
  "    " ++ slot.text ++ " = (" ++ cast ++ ")LIBRARY_GET_ADDR(capi_lib, \"" ++ symbol ++ "\");"

/-- A binding of identifiers is read back. -/
theorem readBind?_bindLine {slot : Slot} {cast symbol : String}
    (hg : isIdentifier slot.group = true) (hn : isIdentifier slot.name = true)
    (hcast : ')' ∉ cast.toList) (hs : isIdentifier symbol = true) (text : List Char)
    (htext : (bindLine slot cast symbol).toList = "    ".toList ++ text) :
    readBind? text = some (.bind slot cast symbol) := by
  have hslot := readSlot?_text hg hn (by decide : isWordChar ' ' = false)
  have hparen := fun rest => Text.cutAt?_singleton_eq_some_iff.mpr
    ⟨(rfl : cast.toList ++ ')' :: rest = cast.toList ++ ')' :: rest), hcast⟩
  have hquote := fun rest => Text.cutAt?_singleton_eq_some_iff.mpr
    ⟨(rfl : symbol.toList ++ '"' :: rest = symbol.toList ++ '"' :: rest),
      not_mem_of_isIdentifier hs (by decide)⟩
  obtain rfl : slot.text.toList ++ (' ' :: ("= (".toList ++ (cast.toList ++ (')' ::
      ("LIBRARY_GET_ADDR(capi_lib, \"".toList ++ (symbol.toList ++ ('"' :: ");".toList))))))) =
      text := by
    simpa [bindLine] using htext
  rw [readBind?, hslot, Option.bind_some]
  dsimp only
  rw [Text.dropFront?_append, Option.bind_some, hparen, Option.bind_some]
  dsimp only
  rw [Text.dropFront?_append, Option.bind_some, hquote, Option.bind_some]
  dsimp only
  rw [if_pos rfl, String.ofList_toList, String.ofList_toList]

/-- A line that does not begin like a test is no test. -/
theorem readGuard?_eq_none {line : String} (h : ¬"    if (!".toList <+: line.toList) :
    readGuard? line = none := by
  rw [readGuard?, Text.dropFront?_eq_none_iff.mpr h, Option.bind_none]

/-- A line that does nothing is kept as it is. -/
theorem readLine?_idle {line : String}
    (h : line = "" ∨ ∃ front ∈ idleFronts, front.toList <+: line.toList) :
    readLine? line = some (.line line) := if_pos h

/-- The line that binds a slot is read back. -/
theorem readLine?_bindLine {slot : Slot} {cast symbol : String}
    (hg : isIdentifier slot.group = true) (hn : isIdentifier slot.name = true)
    (hcast : ')' ∉ cast.toList) (hs : isIdentifier symbol = true) :
    readLine? (bindLine slot cast symbol) = some (.bind slot cast symbol) := by
  have hblank : bindLine slot cast symbol ≠ "" := by
    simp [bindLine, ← String.toList_inj]
  have hfronts : ¬∃ front ∈ idleFronts, front.toList <+: (bindLine slot cast symbol).toList := by
    simp [bindLine, Slot.text, idleFronts]
  have hreturn : bindLine slot cast symbol ≠ "    return true;" := by
    simp [bindLine, Slot.text, ← String.toList_inj]
  rw [readLine?, if_neg (not_or.mpr ⟨hblank, hfronts⟩), if_neg hreturn]
  have hfront : "    ".toList <+: (bindLine slot cast symbol).toList := by
    simp [bindLine]
  obtain ⟨text, htext⟩ := hfront
  rw [← htext, Text.dropFront?_append, Option.bind_some]
  exact readBind?_bindLine hg hn hcast hs text htext.symm

/-- The test of the library is read back. -/
theorem readGuard?_library : readGuard? "    if (!capi_lib)" = some .requireLibrary := by
  decide

/-- The test of a slot is read back. -/
theorem readGuard?_slot {slot : Slot} (hg : isIdentifier slot.group = true)
    (hn : isIdentifier slot.name = true) :
    readGuard? ("    if (!" ++ slot.text ++ ")") = some (.requireSlot slot) := by
  have hslot := readSlot?_text hg hn (by decide : isWordChar ')' = false) []
  have hlibrary : slot.text.toList ++ [')'] ≠ "capi_lib)".toList := by
    simp [Slot.text]
  have hline : ("    if (!" ++ slot.text ++ ")").toList =
      "    if (!".toList ++ (slot.text.toList ++ [')']) := by
    simp
  rw [readGuard?, hline, Text.dropFront?_append, Option.bind_some,
    if_neg hlibrary, hslot, Option.bind_some]
  rfl

/-- What the lines of a statement say: the opening of the library is left as lines. -/
def Statement.spelled : Statement → List Statement
  | .openLibrary name => (Statement.openLibrary name).lines.map .line
  | s => [s]

/-- A statement whose lines can be read back. -/
def Statement.Legible : Statement → Prop
  | .line text => text = "" ∨ "    //".toList <+: text.toList
  | .bind slot cast symbol => isIdentifier slot.group = true ∧ isIdentifier slot.name = true ∧
    ')' ∉ cast.toList ∧ isIdentifier symbol = true
  | .requireSlot slot => isIdentifier slot.group = true ∧ isIdentifier slot.name = true
  | .openLibrary _ | .requireLibrary | .succeed => True

/-- A line that is no test is read by itself, and then those after it. -/
theorem readBody?_cons {line : String} {s : Statement} (hguard : readGuard? line = none)
    (hline : readLine? line = some s) (rest : List String) :
    readBody? (line :: rest) = (readBody? rest).map (s :: ·) := by
  conv_lhs => unfold readBody?
  simp only [hguard, hline, Option.bind_some]

/-- A test is read with the lines that belong to it, and then those after them. -/
theorem readBody?_guard {line : String} {s : Statement} (hguard : readGuard? line = some s)
    (rest : List String) :
    readBody? (line :: guardBlock ++ rest) = (readBody? rest).map (s :: ·) := by
  rw [guardBlock, List.cons_append, List.cons_append, List.cons_append, List.cons_append,
    List.nil_append]
  conv_lhs => unfold readBody?
  simp only [hguard, guardBlock, if_true]

/-- A line that does nothing is read as it is, and then those after it. -/
theorem readBody?_idle {front : String} (hfront : front ∈ idleFronts) {line : String}
    (h : front.toList <+: line.toList) (rest : List String) :
    readBody? (line :: rest) = (readBody? rest).map (.line line :: ·) := by
  have hguard : ¬"    if (!".toList <+: line.toList := by
    obtain ⟨more, hmore⟩ := h
    rw [← hmore]
    simp only [idleFronts, List.mem_cons, List.not_mem_nil, or_false] at hfront
    rcases hfront with rfl | rfl | rfl <;> simp
  exact readBody?_cons (readGuard?_eq_none hguard) (readLine?_idle (.inr ⟨front, hfront, h⟩)) rest

/-- The line that opens a library begins like one that does nothing. -/
theorem openingFront_openLine (name ending : String) :
    "    void* capi_lib = LIBRARY_OPEN(".toList <+: (openLine name ending).toList := by
  have hquote : "    void* capi_lib = LIBRARY_OPEN(".toList <+:
      "    void* capi_lib = LIBRARY_OPEN(\"".toList := by decide
  have hline : (openLine name ending).toList = "    void* capi_lib = LIBRARY_OPEN(\"".toList ++
      ((librarySpelling name ending).toList ++ "\");".toList) := by
    unfold openLine
    rw [String.toList_append, String.toList_append, List.append_assoc]
  rw [hline]
  exact hquote.trans (List.prefix_append _ _)

/-- The lines of a legible statement are read as what they say. -/
theorem readBody?_lines {s : Statement} (h : s.Legible) (rest : List String) :
    readBody? (s.lines ++ rest) = (readBody? rest).map (s.spelled ++ ·) := by
  cases s with
  | line text =>
    rcases h with rfl | hcomment
    · exact readBody?_cons (by decide) (by decide) rest
    · exact readBody?_idle (List.mem_cons_self) hcomment rest
  | openLibrary name =>
    have hopen := fun ending =>
      readBody?_idle (by simp [idleFronts]) (openingFront_openLine name ending)
    have hdirective : ∀ line, "#".toList <+: line.toList → ∀ rest,
        readBody? (line :: rest) = (readBody? rest).map (.line line :: ·) :=
      fun line hline => readBody?_idle (by simp [idleFronts]) hline
    have hwindows := hdirective windowsCheck (by decide)
    have helse := hdirective "#else" (by decide)
    have hendif := hdirective "#endif" (by decide)
    simp only [Statement.lines, Statement.spelled, List.cons_append, List.nil_append]
    rw [hwindows, hopen, helse, hopen, hendif]
    simp [Option.map_map, Function.comp_def]
  | requireLibrary => exact readBody?_guard readGuard?_library rest
  | bind slot cast symbol =>
    obtain ⟨hg, hn, hcast, hs⟩ := h
    refine readBody?_cons (readGuard?_eq_none ?_) (readLine?_bindLine hg hn hcast hs) rest
    simp [bindLine, Slot.text]
  | requireSlot slot => exact readBody?_guard (readGuard?_slot h.1 h.2) rest
  | succeed => exact readBody?_cons (by decide) (by decide) rest

/-- The lines of legible statements are read as what they say. -/
theorem readBody?_flatMap_lines {statements : List Statement}
    (h : ∀ s ∈ statements, s.Legible) :
    readBody? (statements.flatMap Statement.lines) =
      some (statements.flatMap Statement.spelled) := by
  induction statements with
  | nil => rfl
  | cons s statements ih =>
    have hs := h s List.mem_cons_self
    have hrest := ih fun t ht => h t (List.mem_cons_of_mem s ht)
    rw [List.flatMap_cons, readBody?_lines hs, hrest, List.flatMap_cons]
    rfl

/-- The lines of a function of legible statements are read as what they say. -/
theorem readFunction?_functionLines {statements : List Statement}
    (h : ∀ s ∈ statements, s.Legible) :
    readFunction? (functionLines statements) = some (statements.flatMap Statement.spelled) := by
  have hread := readBody?_flatMap_lines h
  simpa [functionLines, readFunction?, rootTag] using hread

end Bindery.Header
