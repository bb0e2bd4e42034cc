import Bindery.Signature.Parameters
import Bindery.Text.Cut

/-!
# Annotation lines

An annotation is a line `OMP_CAPI(Group_Name, Ret(Type name, ...))`. Five cuts take it apart: the
marker in front, the first comma with a blank, the first underscore of what precedes it, the first
opening parenthesis of what follows it, and the parenthesis that closes that one. What comes after
is ignored.
-/

namespace Bindery.Signature

/-- The text that marks an annotation. -/
def marker : String := "OMP_CAPI("

/-- What keeps a line from being an annotation. -/
inductive Defect
  | unmarked (marker : String)
  | noSeparator
  | noGroup (symbol : String)
  | noParameterList
  | noReturnType
  | unbalanced
  deriving DecidableEq, Repr

/-- The text of a defect. -/
def Defect.message : Defect → String
  | .unmarked marker => "line does not start with " ++ Text.quoted marker
  | .noSeparator => "missing ', ' after the function name"
  | .noGroup symbol => "function name " ++ Text.quoted symbol ++ " has no Group_ prefix"
  | .noParameterList => "missing '(' after the return type"
  | .noReturnType => "empty return type"
  | .unbalanced => "unbalanced parentheses in parameter list"

/-- The place of a defect, as far as it is known. -/
structure Place where
  /-- The file. -/
  path : Option String
  /-- The line, shown only beside a file. -/
  line : Option Int
  deriving DecidableEq, Repr

/-- A message with the place in front. -/
def Place.locate (p : Place) (text : String) : String :=
  match p.path, p.line with
  | none, _ => text
  | some path, none => path ++ ": " ++ text
  | some path, some line => path ++ ":" ++ toString line ++ ": " ++ text

/-- The place that a source gives. -/
def Place.ofSource (source : Option Source) : Place :=
  ⟨source.map Source.path, source.map Source.line⟩

/-- A line that is no annotation. -/
structure Fault where
  /-- What is wrong. -/
  defect : Defect
  /-- Where it stands. -/
  place : Place
  deriving DecidableEq, Repr

/-- The text of a fault. -/
def Fault.message (f : Fault) : String := f.place.locate f.defect.message

/-- The parts of an annotation line as they are written. -/
structure Parts where
  /-- The group and the name together. -/
  symbol : List Char
  /-- What stands before the first underscore of the symbol. -/
  group : List Char
  /-- What stands after it. -/
  name : List Char
  /-- The return type, without the blanks around it. -/
  returns : List Char
  /-- The text between the parentheses of the parameter list. -/
  parameters : List Char
  deriving DecidableEq, Repr

/-- The parts of a line under a marker, or the first thing that is wrong with it. -/
def cut (marker line : List Char) : Except Defect Parts :=
  match Text.dropFront? marker (Text.strip line) with
  | none => .error (.unmarked (String.ofList marker))
  | some content =>
    match Text.cutAt? [',', ' '] content with
    | none => .error .noSeparator
    | some (full, rest) =>
      let symbol := Text.strip full
      match Text.cutAt? ['_'] symbol with
      | none | some ([], _) | some (_, []) => .error (.noGroup (String.ofList symbol))
      | some (group, name) =>
        match Text.cutAt? ['('] rest with
        | none => .error .noParameterList
        | some (before, after) =>
          let returns := Text.strip before
          if returns.isEmpty then .error .noReturnType
          else
            match closeFrom 1 after with
            | none => .error .unbalanced
            | some close => .ok ⟨symbol, group, name, returns, after.take close⟩

/-- How the lines of a scan are read. -/
structure Reading where
  /-- The spelling of types. -/
  types : TypeMap := .header
  /-- Whether a record is named by its whole symbol and not by what follows the group. -/
  flatNames : Bool := false
  /-- The text that marks an annotation. -/
  marker : String := Signature.marker
  deriving DecidableEq, Repr

/-- The record of the parts of a line. -/
def Parts.record (how : Reading) (source : Option Source) (p : Parts) : Record where
  group := String.ofList p.group
  name := String.ofList (if how.flatNames then p.symbol else p.name)
  returns := how.types.normalize (String.ofList p.returns)
  parameters := Signature.parameters how.types p.parameters
  symbol := String.ofList p.symbol
  source := source

/-- The record that an annotation line gives, with the reports of the parameters that were
dropped. -/
def read (how : Reading) (source : Option Source) (line : String) : Logged Fault Record :=
  match cut how.marker.toList line.toList with
  | .error defect => .fail ⟨defect, .ofSource source⟩
  | .ok parts => ⟨droppedParts how.types parts.parameters, .ok (parts.record how source)⟩

end Bindery.Signature
