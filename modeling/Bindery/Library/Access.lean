import Bindery.Library.Client

/-!
# Access to tables and slots

Two ways lead to a function: by attribute, and by item. A client and a table have members of their
own, and by attribute a member of that name comes first; by item only groups and slots are seen.
-/

namespace Bindery.Library

/-- What an access does not find. -/
inductive AccessFault
  /-- There are no tables yet. -/
  | notInitialized
  /-- There is no such group, or there are no tables yet. -/
  | noGroup (group : String)
  /-- A table has no field of a name. -/
  | noField (group name : String)
  /-- A table has no item of a name. -/
  | noItem (name : String)
  deriving DecidableEq, Repr

/-- The text of a fault. -/
def AccessFault.message : AccessFault → String
  | .notInitialized => "C API is not initialized"
  | .noGroup group => group
  | .noField group name => group ++ "_t has no field " ++ Text.quoted name
  | .noItem name => Text.quoted name

/-- What an attribute leads to: a member of the object itself, or what is filed under the name. -/
inductive Attribute (α : Type)
  | member (name : String)
  | filed (value : α)
  deriving DecidableEq, Repr

/-- The members that every object has. -/
def commonMembers : List String := [
  "__class__", "__delattr__", "__dict__", "__dir__", "__doc__", "__eq__", "__format__", "__ge__",
  "__getattr__", "__getattribute__", "__getstate__", "__gt__", "__hash__", "__init__",
  "__init_subclass__", "__le__", "__lt__", "__module__", "__ne__", "__new__",
  "__reduce__", "__reduce_ex__", "__repr__",
  "__setattr__", "__sizeof__", "__str__", "__subclasshook__", "__weakref__"]

/-- The members of a client. -/
def Client.members : List String :=
  ["initialize", "initialized", "tables", "_surface", "_path", "_sentinel", "_tables"] ++
    commonMembers

/-- The members of a table. -/
def Table.members : List String :=
  ["names", "missing", "group", "_slots", "__contains__", "__getitem__"] ++ commonMembers

/-- Whether there are tables. -/
def Client.initialized (c : Client) : Bool := c.tables.isSome

/-- The published tables. -/
def Client.published (c : Client) : Except AccessFault (List (String × Table)) :=
  match c.tables with
  | some tables => .ok tables
  | none => .error .notInitialized

/-- The table of a group, by item. -/
def Client.table (c : Client) (group : String) : Except AccessFault Table :=
  match c.tables.bind (Keyed.get? group) with
  | some table => .ok table
  | none => .error (.noGroup group)

/-- What a client has under a name, by attribute. -/
def Client.getAttribute (c : Client) (name : String) : Except AccessFault (Attribute Table) :=
  if Client.members.contains name then .ok (.member name) else (c.table name).map .filed

/-- The slot of a name, by item. -/
def Table.getItem (t : Table) (name : String) : Except AccessFault (Option Nat) :=
  match Keyed.get? name t.slots with
  | some slot => .ok slot
  | none => .error (.noItem name)

/-- What a table has under a name, by attribute. -/
def Table.getAttribute (t : Table) (name : String) : Except AccessFault (Attribute (Option Nat)) :=
  if Table.members.contains name then .ok (.member name)
  else
    match Keyed.get? name t.slots with
    | some slot => .ok (.filed slot)
    | none => .error (.noField t.group name)

/-- Whether a table has a name. -/
def Table.has (t : Table) (name : String) : Bool := Keyed.has name t.slots

end Bindery.Library
