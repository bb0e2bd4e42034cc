import Bindery.Library.Client

/-!
# Sessions of a client

A client can be filled any number of times, while its surface grows and what its loader finds
changes. A library that stands in for the loader has each of its functions once, whoever opens it,
and it is assumed that its functions take any types, also `void`; from files each opening gives
functions of its own, and these refuse `void`. Functions that were given out are never lost, since
tables may hold them.
-/

namespace Bindery.Library

/-- What the loader of a client finds. -/
inductive Supply
  /-- A library that stands in for whatever is to be opened. -/
  | standIn (library : Opened)
  /-- The files of a tree, some of them shared libraries. -/
  | files (tree : FileTree) (images : Images)
  deriving DecidableEq

/-- A client with all functions that were ever given out, and what its loader finds. -/
structure Session where
  /-- The client. -/
  client : Client
  /-- The functions. -/
  store : Store
  /-- What the loader finds. -/
  supply : Supply

/-- What happens in a session. -/
inductive Act
  /-- The client is to fill its tables. -/
  | fill
  /-- A record is added to the surface of the client, or refused. -/
  | add (duplicates : Duplicates) (r : Record)
  /-- From now on a new library with some symbols stands in for the loader. Its functions take any
  types. -/
  | standIn (symbols : List String)
  /-- The library that stands in exports a symbol, with a new function. -/
  | offer (symbol : String)
  /-- The library that stands in exports a symbol no more. -/
  | withdraw (symbol : String)
  /-- From now on the loader opens the files of a tree. -/
  | lay (tree : FileTree) (images : Images)

namespace Session

/-- The beginning of a session: a client that has published nothing, and some files. -/
def start (surface : Surface) (path : Path) (sentinel : Header.Slot) (tree : FileTree)
    (images : Images) : Session :=
  ⟨{ surface, path, sentinel }, [], .files tree images⟩

/-- What filling the tables does now. -/
def call (s : Session) : Client.Filled :=
  match s.supply with
  | .standIn l => s.client.fill s.store (.ok l)
  | .files tree images => s.client.connect tree images s.store

/-- The session after something happened. A library that stands in is one whose functions take any
types. -/
def next (s : Session) : Act → Session
  | .fill => { s with client := s.call.client, store := s.call.store }
  | .add duplicates r =>
    { s with client :=
      { s.client with surface := (s.client.surface.attempt duplicates r).1 } }
  | .standIn symbols =>
    let (l, store) := Opened.ofSymbols true s.store symbols
    { s with store, supply := .standIn l }
  | .offer symbol =>
    match s.supply with
    | .standIn l =>
      let (l, store) := l.add s.store symbol
      { s with store, supply := .standIn l }
    | .files .. => s
  | .withdraw symbol =>
    match s.supply with
    | .standIn l => { s with supply := .standIn (l.drop symbol) }
    | .files .. => s
  | .lay tree images => { s with supply := .files tree images }

/-- The session after several things happened. -/
def run (s : Session) (acts : List Act) : Session := acts.foldl next s

/-- What the published tables show: under each group its slots, each with its function and the
types of this, or nothing. -/
def shown (s : Session) : Option (List (String × List (String × Option Function))) :=
  s.client.tables.map fun tables => tables.map fun (group, table) =>
    (group, table.slots.map fun (name, slot) => (name, slot.bind (s.store[·]?)))

end Session

end Bindery.Library
