import Bindery.Header.Preamble
import Bindery.Keyed
import Bindery.Text.Blank
import Bindery.Text.Cut
import Bindery.Text.Quoted

/-!
# C types of bound functions

The types that a bound function can show, with their sizes on a 64-bit platform, and the spellings
that stand for them. Any other pointer, and any kind of game object, is an untyped pointer; all
other spellings are unknown.
-/

namespace Bindery

/-- A type of a parameter or of a result. -/
inductive CType
  | void
  | bool
  | char
  | int
  | uint
  | float
  | double
  | long
  | ulong
  | byte
  | ubyte
  | short
  | ushort
  | charPointer
  | pointer
  | version
  | stringView
  | stringViewPointer
  | stringBufferPointer
  deriving DecidableEq, Repr

namespace CType

/-- The name of a type. -/
def name : CType → String
  | void => "void"
  | bool => "c_bool"
  | char => "c_char"
  | int => "c_int"
  | uint => "c_uint"
  | float => "c_float"
  | double => "c_double"
  | long => "c_long"
  | ulong => "c_ulong"
  | byte => "c_byte"
  | ubyte => "c_ubyte"
  | short => "c_short"
  | ushort => "c_ushort"
  | charPointer => "c_char_p"
  | pointer => "c_void_p"
  | version => "ComponentVersion"
  | stringView => "CAPIStringView"
  | stringViewPointer => "LP_CAPIStringView"
  | stringBufferPointer => "LP_CAPIStringBuffer"

/-- The number of bytes of a value. -/
def size : CType → Nat
  | void => 0
  | bool | char | byte | ubyte => 1
  | short | ushort => 2
  | int | uint | float => 4
  | double | long | ulong | charPointer | pointer | stringViewPointer | stringBufferPointer => 8
  | version => 6
  | stringView => 16

/-- The spellings that stand for a type of their own. -/
def spellings : List (String × CType) := [
  ("void", void), ("bool", bool), ("char", char), ("int", int), ("float", float),
  ("double", double), ("size_t", ulong), ("int8_t", byte), ("int16_t", short), ("int32_t", int),
  ("int64_t", long),
  ("uint8_t", ubyte), ("uint16_t", ushort), ("uint32_t", uint), ("uint64_t", ulong),
  ("const char*", charPointer), ("struct ComponentVersion", version),
  ("struct CAPIStringView", stringView),
  ("struct CAPIStringView*", stringViewPointer), ("struct CAPIStringBuffer*", stringBufferPointer)]

/-- A spelling that stands for no type. -/
structure Unknown where
  /-- The spelling, without the blanks around it. -/
  spelling : String
  deriving DecidableEq, Repr

/-- The text of the failure. -/
def Unknown.message (u : Unknown) : String :=
  "no ctypes mapping for C type " ++ Text.quoted u.spelling

/-- The type of a spelling. -/
def ofSpelling (written : String) : Except Unknown CType :=
  let spelling := Text.stripped written
  match Keyed.get? spelling spellings with
  | some type => .ok type
  | none =>
    if Text.endsWith ['*'] spelling.toList || Header.entityTypes.contains spelling then .ok pointer
    else .error ⟨spelling⟩

end CType

end Bindery
