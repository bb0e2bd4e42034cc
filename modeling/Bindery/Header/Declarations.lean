import Bindery.Event.Schema
import Bindery.Header.Item
import Bindery.Signature.Parameters
import Bindery.Surface.Basic

/-!
# Declarations of a surface

The declarations that a header makes for a surface and an event schema: a function type for each
record, a table of functions for each group, one struct that holds all tables, and an argument
struct with a callback type for each event.
-/

namespace Bindery.Header

/-- The tag of the struct that holds all tables. -/
def rootTag : String := "OMPAPI_t"

/-- The tag of a group's table. -/
def tableTag (group : String) : String := group ++ "_t"

/-- The name of a function's type. -/
def functionType (group name : String) : String := group ++ "_" ++ name ++ "_t"

/-- The tag of an event's argument struct. -/
def argumentsTag (event : String) : String := "EventArgs_" ++ event

/-- The name of an event's callback type. -/
def callbackType (event : String) : String := "EventCallback_" ++ event

/-- A name for the handle of each kind of game object. -/
def entityAliases (names : List String) : List Item := names.map Item.handle

/-- The function types of a surface, group by group. -/
def functionTypes (s : Surface) : List Item :=
  s.sections.flatMap fun (group, records) =>
    [.line "", .line "", .line ("// " ++ group ++ " function type definitions")] ++
      records.map fun r =>
        .function (functionType group r.name) r.returns (Signature.renderParameters r.parameters)

/-- The declarations of an event. -/
def eventItems (e : Event) : List Item := [
  .arguments (argumentsTag e.name) (e.arguments.map fun p => ⟨p.type, p.name⟩),
  .function (callbackType e.name) "bool" ("struct " ++ argumentsTag e.name ++ " args")]

/-- The declarations of all events, component by component. -/
def eventTypes (s : EventSchema) : List Item :=
  s.components.flatMap fun (component, events) =>
    [.line "", .line "", .line ("// " ++ component ++ " event type and arguments definitions")] ++
      events.flatMap eventItems

/-- The fields of a group's table. -/
def tableFields (group : String) (records : List Record) : List Field :=
  records.map fun r => ⟨functionType group r.name, r.name⟩

/-- The tables of a surface, one for each group. -/
def dispatchTables (s : Surface) : List Item :=
  s.sections.flatMap fun (group, records) => [
    .line "", .line ("// " ++ group ++ " functions"),
    .table (tableTag group) (tableFields group records)]

/-- The struct that holds the tables of all groups. -/
def rootAggregate (s : Surface) : List Item := [
  .line "", .line "// All APIs",
  .table rootTag (s.groupNames.map fun group => ⟨"struct " ++ tableTag group, group⟩)]

end Bindery.Header
