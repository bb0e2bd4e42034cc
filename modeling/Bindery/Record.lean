/-!
# Records of annotated functions

What one annotation says: the group and name of an exported function, its signature, the symbol
under which the library exports it, and the place where it was written.
-/

namespace Bindery

/-- One parameter of a signature. -/
structure Parameter where
  /-- The type's spelling. -/
  type : String
  /-- The parameter's name. -/
  name : String
  deriving DecidableEq, Repr

/-- The place of an annotation. -/
structure Source where
  /-- The file, below the scanned root. -/
  path : String
  /-- The line, counted from one. -/
  line : Int
  deriving DecidableEq, Repr

/-- A place as messages show it. -/
def Source.text (s : Source) : String := s.path ++ ":" ++ toString s.line

/-- One annotated function. -/
structure Record where
  /-- The group that it belongs to. -/
  group : String
  /-- Its name in the group. -/
  name : String
  /-- The type that it returns. -/
  returns : String
  /-- Its parameters, in order. -/
  parameters : List Parameter
  /-- The symbol that the library exports. -/
  symbol : String
  /-- Where it was written, if it was read from a file. -/
  source : Option Source
  deriving DecidableEq, Repr

namespace Record

/-- What a record is filed under. -/
def key (r : Record) : String × String := (r.group, r.name)

/-- The symbol of a function that does not name its own. -/
def defaultSymbol (group name : String) : String := group ++ "_" ++ name

/-- A record that is stated outright; an empty symbol stands for the default one. -/
def declared (group name returns : String) (parameters : List Parameter) (symbol : String)
    (source : Option Source) : Record :=
  ⟨group, name, returns, parameters, if symbol.isEmpty then defaultSymbol group name else symbol,
    source⟩

/-- Records describe the same function when they agree in all but the place. -/
def sameFunction (a b : Record) : Bool := { a with source := none } = { b with source := none }

/-- The place of a record, where a message has to show one. -/
def place (r : Record) : String := (r.source.map Source.text).getD "None"

end Record

end Bindery
