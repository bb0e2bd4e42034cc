import Bindery.Library.CType
import Bindery.Log
import Bindery.Record

/-!
# Functions of an open library

An open library has one function under each exported symbol, however many records bind it, and so
a later binding changes what an earlier one shows. Functions are therefore kept in a store and
named by their place in it.
-/

namespace Bindery.Library

/-- A function and the types that it shows. -/
structure Function where
  /-- The symbol under which it was exported. -/
  symbol : String
  /-- The type of its result. -/
  returns : CType := .int
  /-- The types of its parameters, once they are known. -/
  parameters : Option (List CType) := none
  deriving DecidableEq, Repr

/-- All functions of the libraries that were opened; each is named by its place. -/
abbrev Store := List Function

/-- An open library. -/
structure Opened where
  /-- The place of the function under each symbol. -/
  exports : List (String × Nat)
  /-- Whether a parameter may be of type `void`. -/
  acceptsVoid : Bool
  deriving DecidableEq, Repr

/-- The function under a symbol, if the library exports it. The handle of a library answers to a few
names of its own, `_handle` among them, and to names of the form `__x__`; it is assumed that no
symbol clashes with these. -/
def Opened.resolve (l : Opened) (symbol : String) : Option Nat := Keyed.get? symbol l.exports

/-- The library with one more function, new even if the symbol is exported already. -/
def Opened.add (l : Opened) (store : Store) (symbol : String) : Opened × Store :=
  ({ l with exports := Keyed.put symbol store.length l.exports }, store ++ [⟨symbol, .int, none⟩])

/-- The library without a symbol. -/
def Opened.drop (l : Opened) (symbol : String) : Opened :=
  { l with exports := Keyed.erase symbol l.exports }

/-- A library that exports some symbols, each with a function of its own. -/
def Opened.ofSymbols (acceptsVoid : Bool) (store : Store) (symbols : List String) :
    Opened × Store :=
  symbols.foldl (fun (l, store) symbol => l.add store symbol) (⟨[], acceptsVoid⟩, store)

/-- A parameter of type `void` that a library refuses; its position counts from one. -/
structure VoidParameter where
  /-- The position. -/
  position : Nat
  deriving DecidableEq, Repr

/-- The text of the refusal. -/
def VoidParameter.message (v : VoidParameter) : String :=
  "item " ++ toString v.position ++ " in _argtypes_ has no from_param method"

/-- How a binding ends. -/
inductive Bound
  | done
  | unknown (type : CType.Unknown)
  | refused (parameter : VoidParameter)
  deriving DecidableEq, Repr

/-- Giving a function the types of a record: the type of the result first, then those of the
parameters. A type of a parameter that cannot be given leaves the type of the result changed. -/
def bind (acceptsVoid : Bool) (store : Store) (place : Nat) (r : Record) : Store × Bound :=
  match CType.ofSpelling r.returns with
  | .error u => (store, .unknown u)
  | .ok type =>
    let store := store.modify place fun f => { f with returns := type }
    match r.parameters.mapM fun p => CType.ofSpelling p.type with
    | .error u => (store, .unknown u)
    | .ok types =>
      match if acceptsVoid then none else types.findIdx? (· = .void) with
      | some index => (store, .refused ⟨index + 1⟩)
      | none => (store.modify place fun f => { f with parameters := some types }, .done)

end Bindery.Library
