import Bindery.Keyed

/-!
# JSON values

Values of a JSON document. An object keeps the order of its members. Integers are exact; any other
number is kept as it is spelled, since nothing here computes with it.
-/

namespace Bindery

/-- A JSON value. -/
inductive Json
  | null
  | bool (value : Bool)
  | int (value : Int)
  | real (spelling : String)
  | text (value : String)
  | list (items : List Json)
  | object (members : List (String × Json))
  deriving Repr, BEq

namespace Json

/-- The members of an object. -/
def members? : Json → Option (List (String × Json))
  | object members => some members
  | _ => none

/-- The items of a list. -/
def items? : Json → Option (List Json)
  | list items => some items
  | _ => none

/-- A text that is not empty. -/
def nonempty? : Json → Option String
  | text value => if value.isEmpty then none else some value
  | _ => none

end Json

end Bindery
