/-!
# Items of a header

What a C header is made of: declarations, and lines that declare nothing. Each item tells the
struct and enum tags and the type names that it defines, and the lines that it is written in.
-/

namespace Bindery.Header

/-- A field of a struct or a parameter of a function: a type and a name. -/
structure Field where
  /-- The type's spelling. -/
  type : String
  /-- The field's name. -/
  name : String
  deriving DecidableEq, Repr

/-- One item. -/
inductive Item
  /-- A directive, a comment or a blank line. -/
  | line (text : String)
  /-- An enumeration. -/
  | enumeration (tag : String) (values : List String)
  /-- A struct whose fields are written out, with their comments. -/
  | record (tag : String) (fields : List String)
  /-- A name for an untyped pointer. -/
  | handle (name : String)
  /-- A name for a pointer to a function. -/
  | function (name returns parameters : String)
  /-- A struct for the arguments of an event. -/
  | arguments (tag : String) (fields : List Field)
  /-- A struct of named fields. -/
  | table (tag : String) (fields : List Field)
  deriving DecidableEq, Repr

namespace Item

/-- The lines of an item. -/
def lines : Item → List String
  | .line text => [text]
  | .enumeration tag values =>
    ["enum " ++ tag, "\x7b"] ++ values.map (fun v => "\t" ++ v ++ ",") ++ ["\x7d;"]
  | .record tag fields => ["struct " ++ tag, "\x7b"] ++ fields.map ("\t" ++ ·) ++ ["\x7d;"]
  | .handle name => ["typedef void* " ++ name ++ ";"]
  | .function name returns parameters =>
    ["typedef " ++ returns ++ " (*" ++ name ++ ")(" ++ parameters ++ ");"]
  | .arguments tag fields =>
    ["struct " ++ tag ++ " \x7b", "    int size;", "    struct \x7b"] ++
      (if fields.isEmpty then [""]
        else fields.map fun f => "        " ++ f.type ++ "* " ++ f.name ++ ";") ++
      ["    \x7d *list;", "\x7d;"]
  | .table tag fields =>
    ["struct " ++ tag ++ " \x7b"] ++
      fields.map (fun f => "    " ++ f.type ++ " " ++ f.name ++ ";") ++
      ["\x7d;"]

/-- The struct or enum tag that an item defines. -/
def tag? : Item → Option String
  | .enumeration tag _ | .record tag _ | .arguments tag _ | .table tag _ => some tag
  | .line _ | .handle _ | .function .. => none

/-- The type name that an item defines. -/
def typeName? : Item → Option String
  | .handle name | .function name .. => some name
  | .line _ | .enumeration .. | .record .. | .arguments .. | .table .. => none

end Item

/-- The lines of items, one after another. -/
def linesOf (items : List Item) : List String := items.flatMap Item.lines

/-- The tags that items define, in order. -/
def tags (items : List Item) : List String := items.filterMap Item.tag?

/-- The type names that items define, in order. -/
def typeNames (items : List Item) : List String := items.filterMap Item.typeName?

end Bindery.Header
