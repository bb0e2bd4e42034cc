import Bindery.Signature.Nesting
import Bindery.Log
import Bindery.Record
import Bindery.TypeMap

/-!
# Parameter lists

Reading `Type name, Type name` and writing it. A parameter is a type, which is one word, and a
name, which is all that follows. A part of the list that does not hold both is dropped and
reported.
-/

namespace Bindery

/-- A parameter from one part of a list: the first word is the type, the rest the name. -/
def Parameter.read? (types : TypeMap) (part : List Char) : Option Parameter :=
  let text := Text.strip part
  let name := Text.dropBlank (text.dropWhile (!Text.isBlank ·))
  if name.isEmpty then none
  else some ⟨types.normalize (String.ofList (text.takeWhile (!Text.isBlank ·))), String.ofList name⟩

/-- A parameter as it stands in a list. -/
def Parameter.text (p : Parameter) : String := p.type ++ " " ++ p.name

namespace Signature

/-- The report of a part that is no parameter. -/
def droppedPart (part : List Char) : Entry :=
  ⟨.debug, .reading, "dropping malformed parameter " ++ Text.quoted (String.ofList part)⟩

/-- The parts of a parameter list; a blank list has none. -/
def parameterParts (text : List Char) : List (List Char) :=
  if (Text.strip text).isEmpty then [] else split text

/-- The parameters of a list, in order. -/
def parameters (types : TypeMap) (text : List Char) : List Parameter :=
  (parameterParts text).filterMap (Parameter.read? types)

/-- The reports of the parts of a list that are dropped, in order. -/
def droppedParts (types : TypeMap) (text : List Char) : List Entry :=
  ((parameterParts text).filter (fun part => (Parameter.read? types part).isNone)).map droppedPart

/-- A parameter list in writing. -/
def renderParameters (ps : List Parameter) : String := ", ".intercalate (ps.map Parameter.text)

end Signature

end Bindery
