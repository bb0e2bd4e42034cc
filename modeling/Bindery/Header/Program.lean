import Bindery.Header.Declarations
import Bindery.Header.Preamble

/-!
# The initializer

The function of the header that opens the library and fills the tables, as a program of a few
kinds of statements. One function has to be exported: it is bound first, and the program stops
there if it is missing. Then every function is bound, group by group; one that the library does
not export leaves its field empty.

`run` says what such a program does, so that it can be compared with a loader that binds without a
compiler.
-/

namespace Bindery.Header

/-- A field of a table: the group that names the table, and the function's name in it. -/
structure Slot where
  /-- The group. -/
  group : String
  /-- The function. -/
  name : String
  deriving DecidableEq, Repr

/-- A slot as a C expression. -/
def Slot.text (s : Slot) : String := "ompapi->" ++ s.group ++ "." ++ s.name

/-- One statement. -/
inductive Statement
  /-- A comment or a blank line. -/
  | line (text : String)
  /-- Opens the library of a name, on either family of platforms. -/
  | openLibrary (name : String)
  /-- Returns false unless the library is open. -/
  | requireLibrary
  /-- Looks a symbol up and stores what was found, or nothing, in a slot, under the slot's
  function type. -/
  | bind (slot : Slot) (cast symbol : String)
  /-- Returns false if a slot is empty. -/
  | requireSlot (slot : Slot)
  /-- Returns true. -/
  | succeed
  deriving DecidableEq, Repr

/-- The lines of a test that returns false. -/
def guardLines (condition : String) : List String :=
  ["    if (!" ++ condition ++ ")", "    \x7b", "        return false;", "    \x7d"]

/-- The path at which the program looks for a library, with the ending of the platform's
libraries. -/
def librarySpelling (name ending : String) : String := "./components/" ++ name ++ ending

/-- The line that opens a library. -/
def openLine (name ending : String) : String :=
  "    void* capi_lib = LIBRARY_OPEN(\"" ++ librarySpelling name ending ++ "\");"

/-- The lines of a statement. -/
def Statement.lines : Statement → List String
  | .line text => [text]
  | .openLibrary name =>
    [windowsCheck, openLine name ".dll", "#else", openLine name ".so", "#endif"]
  | .requireLibrary => guardLines "capi_lib"
  | .bind slot cast symbol =>
    ["    " ++ slot.text ++ " = (" ++ cast ++ ")LIBRARY_GET_ADDR(capi_lib, \"" ++ symbol ++ "\");"]
  | .requireSlot slot => guardLines slot.text
  | .succeed => ["    return true;"]

/-- The statement that binds a function. -/
def bindFunction (group name symbol : String) : Statement :=
  .bind ⟨group, name⟩ (functionType group name) symbol

/-- The statements that bind a surface, group by group. -/
def bindAll (s : Surface) : List Statement :=
  s.sections.flatMap fun (group, records) =>
    [.line "", .line ("    // Retrieve " ++ group ++ " functions")] ++
      records.map fun r => bindFunction group r.name r.symbol

/-- The program for a surface whose mandatory function is known by its slot and symbol. -/
def program (s : Surface) (library : String) (sentinel : Slot) (symbol : String) : List Statement :=
  [.openLibrary library, .line "", .line "    // Check if library was loaded successfully",
    .requireLibrary,
    .line "", .line "    // Verify one of the core C apis is available",
    bindFunction sentinel.group sentinel.name symbol, .line "", .requireSlot sentinel] ++
    bindAll s ++ [.line "", .succeed]

/-- The lines of a program as a C function. -/
def functionLines (statements : List Statement) : List String :=
  ["", "static bool omp_initialize_capi(struct " ++ rootTag ++ "* ompapi) \x7b"] ++
    statements.flatMap Statement.lines ++ ["\x7d;"]

/-- The mandatory function is not on the surface. -/
structure MissingSentinel where
  /-- Its slot. -/
  slot : Slot
  deriving DecidableEq, Repr

/-- The text of the failure. -/
def MissingSentinel.message (m : MissingSentinel) : String :=
  "sentinel symbol " ++ m.slot.group ++ "_" ++ m.slot.name ++ " not found in scanned API surface"

/-- The program that fills the tables of a surface. -/
def initializer (s : Surface) (library : String) (sentinel : Slot) :
    Except MissingSentinel (List Statement) :=
  match s.get? sentinel.group sentinel.name with
  | none => .error ⟨sentinel⟩
  | some record => .ok (program s library sentinel record.symbol)

/-- The fields of the tables that were assigned, each with the symbol whose address it holds, if
any. -/
abbrev Fields := List (Slot × Option String)

/-- What a program returns and leaves in the fields, where `opens` tells whether the library opens
and `exported` what it exports. A program that comes to its end without a return does not say what
it returns. -/
def run (opens : Bool) (exported : String → Bool) : Fields → List Statement → Option Bool × Fields
  | fields, [] => (none, fields)
  | fields, .line _ :: rest => run opens exported fields rest
  | fields, .openLibrary _ :: rest => run opens exported fields rest
  | fields, .requireLibrary :: rest =>
    if opens then run opens exported fields rest else (some false, fields)
  | fields, .bind slot _ symbol :: rest =>
    run opens exported (Keyed.put slot (if exported symbol then some symbol else none) fields) rest
  | fields, .requireSlot slot :: rest =>
    match Keyed.get? slot fields with
    | some (some _) => run opens exported fields rest
    | _ => (some false, fields)
  | fields, .succeed :: _ => (some true, fields)

end Bindery.Header
