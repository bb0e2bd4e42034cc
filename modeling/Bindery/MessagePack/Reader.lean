import Bindery.Json.Basic
import Bindery.Text.Utf8

/-!
# Reading MessagePack

The value at the front of some bytes, by the tables of the format: every form of a string, list,
object or integer is read, the shortest or not. Binary data, extensions and floating point numbers
are no values here.
-/

namespace Bindery.MessagePack

/-- A number from its bytes, most significant first. -/
def fromBigEndian (bytes : List UInt8) : Nat := bytes.foldl (fun n b => n * 256 + b.toNat) 0

/-- The first `n` bytes and the rest, if there are as many. -/
def takeBytes? (n : Nat) (bytes : List UInt8) : Option (List UInt8 × List UInt8) :=
  if n ≤ bytes.length then some (bytes.take n, bytes.drop n) else none

/-- An unsigned number of `width` bytes. -/
def unsigned? (width : Nat) (bytes : List UInt8) : Option (Nat × List UInt8) :=
  (takeBytes? width bytes).map fun (number, rest) => (fromBigEndian number, rest)

/-- A signed number of `width` bytes, in two's complement. -/
def signed? (width : Nat) (bytes : List UInt8) : Option (Int × List UInt8) :=
  (unsigned? width bytes).map fun (n, rest) =>
    let limit := Nat.pow 256 width
    (if n < limit / 2 then (n : Int) else (n : Int) - (limit : Int), rest)

/-- A string of `size` bytes. -/
def stringOf? (size : Nat) (bytes : List UInt8) : Option (String × List UInt8) := do
  let (text, rest) ← takeBytes? size bytes
  match Utf8.decode text with
  | .ok cs => some (String.ofList cs, rest)
  | .error _ => none

/-- A string with its head. -/
def string? : List UInt8 → Option (String × List UInt8)
  | [] => none
  | head :: rest =>
    if 0xa0 ≤ head ∧ head < 0xc0 then stringOf? (head.toNat - 0xa0) rest
    else if head = 0xd9 then (unsigned? 1 rest).bind fun (size, rest) => stringOf? size rest
    else if head = 0xda then (unsigned? 2 rest).bind fun (size, rest) => stringOf? size rest
    else if head = 0xdb then (unsigned? 4 rest).bind fun (size, rest) => stringOf? size rest
    else none

/-- The number of items of a list, from its head. -/
def listSize? : List UInt8 → Option (Nat × List UInt8)
  | [] => none
  | head :: rest =>
    if 0x90 ≤ head ∧ head < 0xa0 then some (head.toNat - 0x90, rest)
    else if head = 0xdc then unsigned? 2 rest
    else if head = 0xdd then unsigned? 4 rest
    else none

/-- The number of members of an object, from its head. -/
def objectSize? : List UInt8 → Option (Nat × List UInt8)
  | [] => none
  | head :: rest =>
    if 0x80 ≤ head ∧ head < 0x90 then some (head.toNat - 0x80, rest)
    else if head = 0xde then unsigned? 2 rest
    else if head = 0xdf then unsigned? 4 rest
    else none

/-- A number with its head. -/
def integer? : List UInt8 → Option (Int × List UInt8)
  | [] => none
  | head :: rest =>
    if head < 0x80 then some (head.toNat, rest)
    else if 0xe0 ≤ head then some ((head.toNat : Int) - 256, rest)
    else if head = 0xcc then (unsigned? 1 rest).map fun (n, rest) => ((n : Int), rest)
    else if head = 0xcd then (unsigned? 2 rest).map fun (n, rest) => ((n : Int), rest)
    else if head = 0xce then (unsigned? 4 rest).map fun (n, rest) => ((n : Int), rest)
    else if head = 0xcf then (unsigned? 8 rest).map fun (n, rest) => ((n : Int), rest)
    else if head = 0xd0 then signed? 1 rest
    else if head = 0xd1 then signed? 2 rest
    else if head = 0xd2 then signed? 4 rest
    else if head = 0xd3 then signed? 8 rest
    else none

/-- A value without items: nothing, a truth value, a string or a number. -/
def leaf? (bytes : List UInt8) : Option (Json × List UInt8) :=
  match bytes with
  | 0xc0 :: rest => some (.null, rest)
  | 0xc2 :: rest => some (.bool false, rest)
  | 0xc3 :: rest => some (.bool true, rest)
  | _ =>
    match string? bytes with
    | some (s, rest) => some (.text s, rest)
    | none => (integer? bytes).map fun (n, rest) => (.int n, rest)

mutual

/-- The value at the front. The fuel bounds the number of calls. -/
def value? : Nat → List UInt8 → Option (Json × List UInt8)
  | 0, _ => none
  | fuel + 1, bytes =>
    match listSize? bytes with
    | some (size, rest) => (items? fuel size rest).map fun (vs, rest) => (.list vs, rest)
    | none =>
      match objectSize? bytes with
      | some (size, rest) => (members? fuel size rest).map fun (ms, rest) => (.object ms, rest)
      | none => leaf? bytes

/-- Some items, one after another. -/
def items? : Nat → Nat → List UInt8 → Option (List Json × List UInt8)
  | _, 0, bytes => some ([], bytes)
  | 0, _ + 1, _ => none
  | fuel + 1, size + 1, bytes => do
    let (v, rest) ← value? fuel bytes
    let (vs, rest) ← items? fuel size rest
    return (v :: vs, rest)

/-- Some members, one after another. -/
def members? : Nat → Nat → List UInt8 → Option (List (String × Json) × List UInt8)
  | _, 0, bytes => some ([], bytes)
  | 0, _ + 1, _ => none
  | fuel + 1, size + 1, bytes => do
    let (key, rest) ← string? bytes
    let (v, rest) ← value? fuel rest
    let (ms, rest) ← members? fuel size rest
    return ((key, v) :: ms, rest)

end

/-- The value that the bytes hold, if they hold one and nothing after it. -/
def decode? (bytes : List UInt8) : Option Json :=
  match value? (2 * bytes.length + 2) bytes with
  | some (v, []) => some v
  | _ => none

end Bindery.MessagePack
