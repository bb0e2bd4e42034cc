import Bindery.Header.Program
import Bindery.Library.Opening

/-!
# Clients of a library

A client opens a library and fills one table of functions for each group of its surface, by the
same contract as the initializer of the header: one function has to be exported, and every other
one that is missing, or has a type that is unknown, leaves its slot empty. Tables are published
whole, and only if all went well.
-/

namespace Bindery.Library

/-- The functions of one group. -/
structure Table where
  /-- The group. -/
  group : String
  /-- Under each name the place of its function, if it was bound. -/
  slots : List (String × Option Nat)
  deriving DecidableEq, Repr

/-- The names of a table, in order. -/
def Table.names (t : Table) : List String := Keyed.keys t.slots

/-- The names whose slots are empty, in order. -/
def Table.missing (t : Table) : List String :=
  t.slots.filterMap fun (name, slot) => if slot.isNone then some name else none

/-- A client of a library. -/
structure Client where
  /-- The functions that it is to bind. -/
  surface : Surface
  /-- The path of the library. -/
  path : Path
  /-- The function that the library has to export. -/
  sentinel : Header.Slot
  /-- The published tables, by group. -/
  tables : Option (List (String × Table)) := none
  deriving DecidableEq, Repr

namespace Client

/-- The symbol that the library has to export. -/
def sentinelSymbol (c : Client) : String :=
  match c.surface.get? c.sentinel.group c.sentinel.name with
  | some r => r.symbol
  | none => Record.defaultSymbol c.sentinel.group c.sentinel.name

/-- The names that a client looks for in its library. -/
def names (c : Client) : List String := c.sentinelSymbol :: c.surface.toList.map Record.symbol

/-- The report of a library that does not open. -/
def notOpened (c : Client) (f : OpenFault) : Entry :=
  ⟨.warning, .loader, "failed to open C API library " ++ c.path.text ++ ": " ++ f.message⟩

/-- The report of a library without the mandatory function. -/
def notCompatible (c : Client) : Entry :=
  ⟨.warning, .loader,
    c.path.text ++ " does not export " ++ c.sentinelSymbol ++ "; not a compatible C API library"⟩

/-- The report of a function that the library does not export. -/
def notExported (r : Record) : Entry :=
  ⟨.debug, .loader, "optional symbol " ++ r.symbol ++ " not exported"⟩

/-- The report of a function with a type that is unknown. -/
def leftUnbound (r : Record) (u : CType.Unknown) : Entry :=
  ⟨.warning, .loader, "leaving " ++ r.symbol ++ " unbound: " ++ u.message⟩

/-- Binding one record: the place of its function, or an empty slot. -/
def bindSlot (l : Opened) (store : Store) (r : Record) :
    Store × Logged VoidParameter (Option Nat) :=
  match l.resolve r.symbol with
  | none => (store, ⟨[notExported r], .ok none⟩)
  | some place =>
    match bind l.acceptsVoid store place r with
    | (store, .done) => (store, pure (some place))
    | (store, .unknown u) => (store, ⟨[leftUnbound r u], .ok none⟩)
    | (store, .refused v) => (store, .fail v)

/-- An activity on the store for each item of a list, first to last, up to the first that fails.
-/
def forAll {α β : Type} (each : Store → α → Store × Logged VoidParameter β) :
    Store → List α → Store × Logged VoidParameter (List β)
  | store, [] => (store, pure [])
  | store, a :: rest =>
    match each store a with
    | (store, ⟨log, .error v⟩) => (store, ⟨log, .error v⟩)
    | (store, ⟨log, .ok b⟩) =>
      let (store, later) := forAll each store rest
      (store, ⟨log ++ later.log, later.result.map (b :: ·)⟩)

/-- Binding the records of a group. -/
def bindGroup (l : Opened) (store : Store) (group : String × List Record) :
    Store × Logged VoidParameter (String × Table) :=
  let (store, slots) := forAll (bindSlot l) store group.2
  (store, ⟨slots.log, slots.result.map fun slots =>
    (group.1, ⟨group.1, (group.2.map Record.name).zip slots⟩)⟩)

/-- Binding a surface. -/
def bindSurface (l : Opened) (store : Store) (s : Surface) :
    Store × Logged VoidParameter (List (String × Table)) :=
  forAll (bindGroup l) store s.sections

/-- What a filling leaves behind. -/
structure Filled where
  /-- The client, with the new tables if it succeeded. -/
  client : Client
  /-- The functions with the types that they show now. -/
  store : Store
  /-- Whether the tables were published, or the refusal that came in between. -/
  report : Logged VoidParameter Bool

/-- Filling the tables from a library that was, or was not, opened. -/
def fill (c : Client) (store : Store) (opening : Except OpenFault Opened) : Filled :=
  match opening with
  | .error f => ⟨c, store, ⟨[c.notOpened f], .ok false⟩⟩
  | .ok l =>
    match l.resolve c.sentinelSymbol with
    | none => ⟨c, store, ⟨[c.notCompatible], .ok false⟩⟩
    | some _ =>
      match bindSurface l store c.surface with
      | (store, ⟨log, .error v⟩) => ⟨c, store, ⟨log, .error v⟩⟩
      | (store, ⟨log, .ok tables⟩) => ⟨{ c with tables := some tables }, store, ⟨log, .ok true⟩⟩

/-- Opening the library of a client in a tree and filling the tables from it. -/
def connect (c : Client) (t : FileTree) (images : Images) (store : Store) : Filled :=
  let (opening, store) := openFile t images store c.path c.names
  c.fill store opening

end Client

end Bindery.Library
