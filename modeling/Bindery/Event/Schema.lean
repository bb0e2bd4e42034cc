import Bindery.Json.Basic
import Bindery.Record
import Bindery.TypeMap

/-!
# Event schemas

The events of a library by component, read from a JSON document of the form `{component: [{name,
args: [{name, type}]}]}`. Everything keeps the order of the document. The first thing in that
order that does not have this form refuses the whole document.
-/

namespace Bindery

/-- One event with its arguments. -/
structure Event where
  /-- The event's name. -/
  name : String
  /-- Its arguments, in order. -/
  arguments : List Parameter
  deriving DecidableEq, Repr

/-- The events of every component. -/
structure EventSchema where
  /-- Under each component its events, in order. -/
  components : List (String × List Event)
  deriving DecidableEq, Repr

/-- What is wrong with the form of an event document. -/
inductive EventDefect
  | noObject
  | noEventList (component : String)
  | unnamedEvent (component : String)
  | noArgumentList (component event : String)
  | noArgumentObject (component event : String)
  | incompleteArgument (component event : String)
  deriving DecidableEq, Repr

/-- The text of a defect. -/
def EventDefect.message : EventDefect → String
  | .noObject => "event schema must be a JSON object keyed by component"
  | .noEventList component => component ++ ": expected a list of events"
  | .unnamedEvent component => component ++ ": every event needs a non-empty 'name'"
  | .noArgumentList component event => component ++ "." ++ event ++ ": 'args' must be a list"
  | .noArgumentObject component event => component ++ "." ++ event ++ ": argument must be an object"
  | .incompleteArgument component event =>
    component ++ "." ++ event ++ ": argument needs non-empty 'name' and 'type'"

namespace EventSchema

/-- The schema without events. -/
def empty : EventSchema := ⟨[]⟩

/-- The number of events. -/
def size (s : EventSchema) : Nat := s.components.foldr (fun (_, events) n => events.length + n) 0

/-- A member of an object that is a text and not empty. -/
def textMember? (members : List (String × Json)) (key : String) : Option String :=
  (Keyed.get? key members).bind Json.nonempty?

/-- One argument of an event. -/
def readArgument (types : TypeMap) (component event : String) (v : Json) :
    Except EventDefect Parameter :=
  match v.members? with
  | none => .error (.noArgumentObject component event)
  | some members =>
    match textMember? members "name", textMember? members "type" with
    | some name, some type => .ok ⟨types.normalize type, name⟩
    | _, _ => .error (.incompleteArgument component event)

/-- The list under `args`; an absent one is empty. -/
def argumentItems? (members : List (String × Json)) : Option (List Json) :=
  match Keyed.get? "args" members with
  | none => some []
  | some v => v.items?

/-- One event of a component. -/
def readEvent (types : TypeMap) (component : String) (v : Json) : Except EventDefect Event :=
  match v.members? with
  | none => .error (.unnamedEvent component)
  | some members =>
    match textMember? members "name" with
    | none => .error (.unnamedEvent component)
    | some name =>
      match argumentItems? members with
      | none => .error (.noArgumentList component name)
      | some items => do
        let arguments ← items.mapM (readArgument types component name)
        return ⟨name, arguments⟩

/-- The events of one component. -/
def readComponent (types : TypeMap) (component : String) (v : Json) :
    Except EventDefect (List Event) :=
  match v.items? with
  | none => .error (.noEventList component)
  | some items => items.mapM (readEvent types component)

/-- The schema of a document. -/
def read (types : TypeMap) (v : Json) : Except EventDefect EventSchema :=
  match v.members? with
  | none => .error .noObject
  | some members => do
    let components ← members.mapM fun (component, v) => do
      let events ← readComponent types component v
      return (component, events)
    return ⟨components⟩

end EventSchema

end Bindery
