import Bindery.Keyed
import Bindery.Text.Blank
import Bindery.Text.Quoted

/-!
# Type spellings

Annotations spell some C types as one word, so that a parameter can be cut at its first blank. A
type map gives those words their spelling in one artefact; a spelling that it does not list stays
as it is. The header writes C, the documentation writes record names without the `struct` keyword.
-/

namespace Bindery

/-- A named table of type spellings. -/
structure TypeMap where
  /-- The name that messages show. -/
  name : String
  /-- The spelling that each listed word becomes, in order. -/
  table : List (String × String)
  deriving DecidableEq, Repr

/-- A pair of a derived table whose target is itself listed with another spelling. -/
structure UnstableSpelling where
  /-- The map that was to be derived. -/
  map : String
  /-- The listed word. -/
  word : String
  /-- What it would become. -/
  target : String
  deriving DecidableEq, Repr

/-- The text of the failure. -/
def UnstableSpelling.message (u : UnstableSpelling) : String :=
  "type map " ++ Text.quoted u.map ++ ": " ++ Text.quoted u.word ++ " -> " ++
    Text.quoted u.target ++ " is not stable"

namespace TypeMap

/-- The words of annotations and their spelling in C. -/
def canonical : List (String × String) := [
  ("StringCharPtr", "const char*"),
  ("objectPtr", "void*"),
  ("voidPtr", "void*"),
  ("OutputStringViewPtr", "struct CAPIStringView*"),
  ("OutputStringBufferPtr", "struct CAPIStringBuffer*"),
  ("ComponentVersion", "struct ComponentVersion"),
  ("CAPIStringView", "struct CAPIStringView")]

/-- What a word becomes, taken as it stands. -/
def spelling (m : TypeMap) (word : String) : String := (Keyed.get? word m.table).getD word

/-- What a written type becomes: the blanks around it go, and a listed word is respelled. -/
def normalize (m : TypeMap) (written : String) : String := m.spelling (Text.stripped written)

/-- The canonical table with some spellings overridden. It is refused if a target is itself listed
under a different spelling; the first such pair in table order is reported. -/
def derive (name : String) (overrides : List (String × String)) : Except UnstableSpelling TypeMap :=
  let m : TypeMap := ⟨name, Keyed.putAll canonical overrides⟩
  match m.table.find? (fun p => m.spelling p.2 != p.2) with
  | some (word, target) => .error ⟨name, word, target⟩
  | none => .ok m

/-- A map of the given pairs alone, unchecked; a later pair wins. -/
def ofPairs (pairs : List (String × String)) : TypeMap := ⟨"", Keyed.ofPairs pairs⟩

/-- The spellings of the header, for signatures and for event arguments. -/
def header : TypeMap := ⟨"header", canonical⟩

/-- The spellings of the documentation. -/
def docs : TypeMap := ⟨"docs", [
  ("StringCharPtr", "const char*"),
  ("objectPtr", "void*"),
  ("voidPtr", "void*"),
  ("OutputStringViewPtr", "CAPIStringView*"),
  ("OutputStringBufferPtr", "CAPIStringBuffer*"),
  ("ComponentVersion", "ComponentVersion"),
  ("CAPIStringView", "CAPIStringView")]⟩

/-- The header's map is the canonical table, which is stable. -/
theorem derive_header : derive "header" [] = .ok header := by rfl

/-- The documentation's map overrides the four record spellings. -/
theorem derive_docs : derive "docs" [
    ("OutputStringViewPtr", "CAPIStringView*"),
    ("OutputStringBufferPtr", "CAPIStringBuffer*"),
    ("ComponentVersion", "ComponentVersion"),
    ("CAPIStringView", "CAPIStringView")] = .ok docs := by rfl

end TypeMap

end Bindery
