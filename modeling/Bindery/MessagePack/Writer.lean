import Bindery.Json.Basic
import Bindery.Text.Utf8

/-!
# Writing MessagePack

The MessagePack form of a JSON value: every item in the shortest form that the format has for it,
strings as UTF-8 text, non-negative integers unsigned and negative ones signed. Integers that fit
neither 64-bit form are refused. What the document of a surface does not hold is left out here:
other numbers get no form, and sizes are taken to be below 2^32, the most that a head can tell.
-/

namespace Bindery.MessagePack

/-- Why a value has no MessagePack form. -/
inductive Fault
  | integerRange
  /-- A number that is no integer, to which no form is given here. -/
  | noInteger
  deriving DecidableEq, Repr

/-- The text of a fault. -/
def Fault.message : Fault → String
  | .integerRange => "Integer value out of range"
  | .noInteger => "Number is no integer"

/-- The last `width` bytes of a number, most significant first. -/
def bigEndian : (width n : Nat) → List UInt8
  | 0, _ => []
  | width + 1, n => bigEndian width (n / 256) ++ [UInt8.ofNat n]

/-- The bytes in front of a string of some bytes, fewer than 2^32. -/
def stringHead (size : Nat) : List UInt8 :=
  if size < 32 then [0xa0 + UInt8.ofNat size]
  else if size < 0x100 then 0xd9 :: bigEndian 1 size
  else if size < 0x10000 then 0xda :: bigEndian 2 size
  else 0xdb :: bigEndian 4 size

/-- The bytes in front of a list of some items, fewer than 2^32. -/
def listHead (size : Nat) : List UInt8 :=
  if size < 16 then [0x90 + UInt8.ofNat size]
  else if size < 0x10000 then 0xdc :: bigEndian 2 size
  else 0xdd :: bigEndian 4 size

/-- The bytes in front of an object of some members, fewer than 2^32. -/
def objectHead (size : Nat) : List UInt8 :=
  if size < 16 then [0x80 + UInt8.ofNat size]
  else if size < 0x10000 then 0xde :: bigEndian 2 size
  else 0xdf :: bigEndian 4 size

/-- A string. -/
def encodeString (s : String) : List UInt8 :=
  let bytes := Utf8.encode s
  stringHead bytes.length ++ bytes

/-- A natural number. -/
def encodeNat (n : Nat) : Except Fault (List UInt8) :=
  if n < 0x80 then .ok (bigEndian 1 n)
  else if n < 0x100 then .ok (0xcc :: bigEndian 1 n)
  else if n < 0x10000 then .ok (0xcd :: bigEndian 2 n)
  else if n < 0x100000000 then .ok (0xce :: bigEndian 4 n)
  else if n < 0x10000000000000000 then .ok (0xcf :: bigEndian 8 n)
  else .error .integerRange

/-- The number `-(m + 1)`, in two's complement. -/
def encodeNegative (m : Nat) : Except Fault (List UInt8) :=
  if m < 0x20 then .ok (bigEndian 1 (0xff - m))
  else if m < 0x80 then .ok (0xd0 :: bigEndian 1 (0xff - m))
  else if m < 0x8000 then .ok (0xd1 :: bigEndian 2 (0xffff - m))
  else if m < 0x80000000 then .ok (0xd2 :: bigEndian 4 (0xffffffff - m))
  else if m < 0x8000000000000000 then .ok (0xd3 :: bigEndian 8 (0xffffffffffffffff - m))
  else .error .integerRange

mutual

/-- A value. A number that is no integer is refused for want of a form; the document of a surface
holds no numbers at all. -/
def encode : Json → Except Fault (List UInt8)
  | .null => .ok [0xc0]
  | .bool false => .ok [0xc2]
  | .bool true => .ok [0xc3]
  | .int (.ofNat n) => encodeNat n
  | .int (.negSucc m) => encodeNegative m
  | .real _ => .error .noInteger
  | .text s => .ok (encodeString s)
  | .list items => (encodeItems items).map (listHead items.length ++ ·)
  | .object members => (encodeMembers members).map (objectHead members.length ++ ·)

/-- The items of a list, one after another. -/
def encodeItems : List Json → Except Fault (List UInt8)
  | [] => .ok []
  | v :: vs => do
    let bytes ← encode v
    let more ← encodeItems vs
    return bytes ++ more

/-- The members of an object, each key before its value. -/
def encodeMembers : List (String × Json) → Except Fault (List UInt8)
  | [] => .ok []
  | (key, v) :: ms => do
    let bytes ← encode v
    let more ← encodeMembers ms
    return encodeString key ++ bytes ++ more

end

end Bindery.MessagePack
