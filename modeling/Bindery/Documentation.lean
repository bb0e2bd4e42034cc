import Bindery.Json.Printer
import Bindery.MessagePack.Writer
import Bindery.Surface.Basic

/-!
# API documentation

The document that describes a surface: under each group a list of functions with return type, name
and parameters. It is written as JSON or as MessagePack.
-/

namespace Bindery.Documentation

/-- A parameter in the document. -/
def parameter (p : Parameter) : Json := .object [("name", .text p.name), ("type", .text p.type)]

/-- A function in the document. -/
def function (r : Record) : Json :=
  .object [("ret", .text r.returns), ("name", .text r.name),
    ("params", .list (r.parameters.map parameter))]

/-- The document of a surface. -/
def document (s : Surface) : Json :=
  .object (s.sections.map fun (group, records) => (group, .list (records.map function)))

/-- The forms in which a document is written. -/
inductive Format
  | json
  | messagePack
  deriving DecidableEq, Repr

/-- The form of a name, if it is one. -/
def Format.ofName? : String → Option Format
  | "json" => some .json
  | "msgpack" => some .messagePack
  | _ => none

/-- The bytes of a document. -/
def encode (v : Json) : Format → Except MessagePack.Fault (List UInt8)
  | .json => .ok (Utf8.encode v.render)
  | .messagePack => MessagePack.encode v

/-- The text of the refusal of a name that is no form. -/
def unknownFormat (name : String) : String := "unsupported docs format: " ++ name

end Bindery.Documentation
