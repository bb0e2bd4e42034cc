import Bindery.Json.Basic
import Bindery.Text.Cut
import Bindery.Text.Half

/-!
# Reading JSON

The grammar of JSON with three more numbers, `NaN`, `Infinity` and `-Infinity`. A text that is no
document is refused with the first thing that is wrong and its place. A key that repeats keeps its
first place and its last value. Lists and objects may stand inside each other only so deep.

Every function takes the rest of the text and gives back what it leaves, so that a fault is known
by the rest of the text at which it arises. Inside strings halves of surrogate pairs are read like
characters. Keys are told apart by their code points, and only then are keys and strings spelled.
-/

namespace Bindery.Json

/-- What can be wrong with the form of a document. -/
inductive Problem
  | byteOrderMark
  | value
  | propertyName
  | colon
  | comma
  | unterminated
  | control
  | escape
  | unicodeEscape
  | extra
  deriving DecidableEq, Repr

/-- The text of a problem. -/
def Problem.text : Problem → String
  | .byteOrderMark => "Unexpected UTF-8 BOM (decode using utf-8-sig)"
  | .value => "Expecting value"
  | .propertyName => "Expecting property name enclosed in double quotes"
  | .colon => "Expecting ':' delimiter"
  | .comma => "Expecting ',' delimiter"
  | .unterminated => "Unterminated string starting at"
  | .control => "Invalid control character at"
  | .escape => "Invalid \\escape"
  | .unicodeEscape => "Invalid \\uXXXX escape"
  | .extra => "Extra data"

/-- The values that hold other values. -/
inductive Container
  | list
  | object
  deriving DecidableEq, Repr

/-- The name of a container in messages. -/
def Container.name : Container → String
  | .list => "array"
  | .object => "object"

/-- Why a document cannot be read. -/
inductive Fault
  /-- The form is wrong at a place: its line and column count from one, its position from zero. -/
  | form (problem : Problem) (line column position : Nat)
  /-- An integer has more digits than are converted. -/
  | tooLong (digits : Nat)
  /-- A container stands inside more others than are followed. -/
  | tooDeep (container : Container)
  deriving DecidableEq, Repr

/-- The most digits that an integer may have. -/
def maxDigits : Nat := 4300

/-- The most containers that may stand inside each other, the outermost counted. -/
def maxDepth : Nat := 990

/-- The text of a fault. -/
def Fault.message : Fault → String
  | .form problem line column position =>
    problem.text ++ ": line " ++ toString line ++ " column " ++ toString column ++ " (char " ++
      toString position ++ ")"
  | .tooLong digits =>
    "Exceeds the limit (" ++ toString maxDigits ++
      " digits) for integer string conversion: value has " ++
      toString digits ++ " digits; use sys.set_int_max_str_digits() to increase the limit"
  | .tooDeep container =>
    "maximum recursion depth exceeded while decoding a JSON " ++ container.name ++
      " from a unicode string"

/-- Where reading stopped, and why. -/
inductive Stop
  | form (problem : Problem) (rest : List Char)
  | tooLong (digits : Nat)
  | tooDeep (container : Container)
  deriving DecidableEq, Repr

/-- The blanks between the tokens of a document. -/
def isSpace (c : Char) : Bool := c = ' ' || c = '\t' || c = '\n' || c = '\r'

/-- The text from its next token on. -/
def skipSpace (cs : List Char) : List Char := cs.dropWhile isSpace

/-- The character that a one-letter escape stands for. -/
def unescape? : Char → Option Char
  | '"' => some '"'
  | '\\' => some '\\'
  | '/' => some '/'
  | 'b' => some '\x08'
  | 'f' => some '\x0c'
  | 'n' => some '\n'
  | 'r' => some '\r'
  | 't' => some '\t'
  | _ => none

/-- The value of four hexadecimal digits. -/
def unit? (a b c d : Char) : Option Nat := do
  let a ← Text.hexValue? a
  let b ← Text.hexValue? b
  let c ← Text.hexValue? c
  let d ← Text.hexValue? d
  return ((a * 16 + b) * 16 + c) * 16 + d

/-- Code points in which the two halves of a surrogate pair have become the character that they
stand for. A half on its own stays. -/
def joinPairs : List Nat → List Nat
  | [] => []
  | [last] => [last]
  | high :: low :: rest =>
    if 0xd800 ≤ high ∧ high < 0xdc00 ∧ 0xdc00 ≤ low ∧ low < 0xe000 then
      (0x10000 + (high - 0xd800) * 0x400 + (low - 0xdc00)) :: joinPairs rest
    else high :: joinPairs (low :: rest)

/-- One more code point in front of those read. -/
def consPoint (n : Nat) : Except Stop (List Nat × List Char) → Except Stop (List Nat × List Char)
  | .ok (points, rest) => .ok (n :: points, rest)
  | .error stop => .error stop

/-- The code points of a string after its opening quote, as they are written, where `opening` is
the text from that quote on. An escape by number has to be followed by at least one more character.
-/
def stringPoints (opening : List Char) : List Char → Except Stop (List Nat × List Char)
  | [] => .error (.form .unterminated opening)
  | c :: cs =>
    if c = '"' then .ok ([], cs)
    else if c = '\\' then
      match cs with
      | [] => .error (.form .unterminated opening)
      | 'u' :: digits =>
        match digits with
        | h₁ :: h₂ :: h₃ :: h₄ :: rest =>
          if rest.isEmpty then .error (.form .unicodeEscape cs)
          else
            match unit? h₁ h₂ h₃ h₄ with
            | some n => consPoint n (stringPoints opening rest)
            | none => .error (.form .unicodeEscape cs)
        | _ => .error (.form .unicodeEscape cs)
      | e :: rest =>
        match unescape? e with
        | some char => consPoint char.toNat (stringPoints opening rest)
        | none => .error (.form .escape (c :: cs))
    else if c < ' ' then .error (.form .control (c :: cs))
    else consPoint c.toNat (stringPoints opening cs)

/-- The code points of a string after its opening quote. -/
def string (opening cs : List Char) : Except Stop (List Nat × List Char) := do
  let (points, rest) ← stringPoints opening cs
  return (joinPairs points, rest)

/-- Whether a character is a digit of a number. -/
def isDigit (c : Char) : Bool := '0' ≤ c && c ≤ '9'

/-- The value of digits. -/
def digitsValue (digits : List Char) : Nat := digits.foldl (fun n c => n * 10 + (c.toNat - 48)) 0

/-- The digits at the front, and the rest. -/
def spanDigits (cs : List Char) : List Char × List Char :=
  (cs.takeWhile isDigit, cs.dropWhile isDigit)

/-- The whole part of a number: zero alone, or digits of which the first is not zero. -/
def whole? : List Char → Option (List Char × List Char)
  | '0' :: rest => some (['0'], rest)
  | cs => match spanDigits cs with
    | ([], _) => none
    | found => some found

/-- The fraction of a number, if a point with a digit follows. -/
def fraction : List Char → List Char × List Char
  | '.' :: rest => match spanDigits rest with
    | ([], _) => ([], '.' :: rest)
    | (digits, rest) => ('.' :: digits, rest)
  | cs => ([], cs)

/-- The exponent of a number, if its letter, perhaps a sign, and a digit follow. -/
def exponent : List Char → List Char × List Char
  | e :: rest =>
    if e = 'e' ∨ e = 'E' then
      let (sign, afterSign) := match rest with
        | '+' :: r => (['+'], r)
        | '-' :: r => (['-'], r)
        | r => ([], r)
      match spanDigits afterSign with
      | ([], _) => ([], e :: rest)
      | (digits, rest) => (e :: sign ++ digits, rest)
    else ([], e :: rest)
  | [] => ([], [])

/-- A number, if one stands at the front. -/
def number? (cs : List Char) : Option (Except Stop (Json × List Char)) := do
  let (sign, unsigned) := match cs with
    | '-' :: rest => (['-'], rest)
    | rest => ([], rest)
  let (digits, afterWhole) ← whole? unsigned
  let (part, afterPart) := fraction afterWhole
  let (power, rest) := exponent afterPart
  if part.isEmpty && power.isEmpty then
    if maxDigits < digits.length then return .error (.tooLong digits.length)
    else
      let n := digitsValue digits
      return .ok (.int (if sign.isEmpty then (n : Int) else -(n : Int)), rest)
  else return .ok (.real (String.ofList (sign ++ digits ++ part ++ power)), rest)

/-- The words that are values. -/
def words : List (List Char × Json) := [
  ("null".toList, .null), ("true".toList, .bool true), ("false".toList, .bool false),
  ("NaN".toList, .real "NaN"), ("Infinity".toList, .real "Infinity"),
  ("-Infinity".toList, .real "-Infinity")]

/-- A word or a number, if one stands at the front. -/
def scalar (cs : List Char) : Except Stop (Json × List Char) :=
  match words.findSome? fun (word, value) => (Text.dropFront? word cs).map (value, ·) with
  | some found => .ok found
  | none => (number? cs).getD (.error (.form .value cs))

section Spelled

variable (spelling : Text.Spelling)

mutual

/-- The value at the front of a text. The fuel bounds the number of calls, and the room is the
number of containers that may still be entered one inside the other. -/
def value : (fuel room : Nat) → List Char → Except Stop (Json × List Char)
  | 0, _, cs => .error (.form .value cs)
  | fuel + 1, room, cs =>
    match cs with
    | '"' :: rest => do
      let (points, rest) ← string cs rest
      return (.text (Text.ofPoints spelling points), rest)
    | '[' :: rest => listBody fuel room rest
    | '\x7b' :: rest => objectBody fuel room rest
    | _ => scalar cs
termination_by structural fuel => fuel

/-- A list after its opening bracket. -/
def listBody : (fuel room : Nat) → List Char → Except Stop (Json × List Char)
  | 0, _, cs => .error (.form .value cs)
  | _, 0, _ => .error (.tooDeep .list)
  | fuel + 1, room + 1, cs =>
    match skipSpace cs with
    | ']' :: rest => .ok (.list [], rest)
    | rest => do
      let (vs, rest) ← elements fuel room rest
      return (.list vs, rest)
termination_by structural fuel => fuel

/-- An object after its opening brace. Whether keys are equal is decided by their code points. -/
def objectBody : (fuel room : Nat) → List Char → Except Stop (Json × List Char)
  | 0, _, cs => .error (.form .value cs)
  | _, 0, _ => .error (.tooDeep .object)
  | fuel + 1, room + 1, cs =>
    match skipSpace cs with
    | '\x7d' :: rest => .ok (.object [], rest)
    | rest => do
      let (ms, rest) ← members fuel room rest
      let read := (Keyed.ofPairs ms).map fun (key, v) => (Text.ofPoints spelling key, v)
      return (.object read, rest)
termination_by structural fuel => fuel

/-- The elements of a list, from the start of one of them to the closing bracket. -/
def elements : (fuel room : Nat) → List Char → Except Stop (List Json × List Char)
  | 0, _, cs => .error (.form .value cs)
  | fuel + 1, room, cs => do
    let (v, rest) ← value fuel room cs
    match skipSpace rest with
    | ']' :: rest => return ([v], rest)
    | ',' :: rest =>
      let (vs, rest) ← elements fuel room (skipSpace rest)
      return (v :: vs, rest)
    | rest => .error (.form .comma rest)
termination_by structural fuel => fuel

/-- The members of an object, from the start of a key to the closing brace. -/
def members : (fuel room : Nat) → List Char → Except Stop (List (List Nat × Json) × List Char)
  | 0, _, cs => .error (.form .value cs)
  | fuel + 1, room, cs =>
    match cs with
    | '"' :: afterQuote => do
      let (key, rest) ← string cs afterQuote
      match skipSpace rest with
      | ':' :: rest =>
        let (v, rest) ← value fuel room (skipSpace rest)
        match skipSpace rest with
        | '\x7d' :: rest => return ([(key, v)], rest)
        | ',' :: rest =>
          let (ms, rest) ← members fuel room (skipSpace rest)
          return ((key, v) :: ms, rest)
        | rest => .error (.form .comma rest)
      | rest => .error (.form .colon rest)
    | _ => .error (.form .propertyName cs)
termination_by structural fuel => fuel

end

/-- A whole text: one value, with nothing but blanks around it. -/
def document (cs : List Char) : Except Stop Json :=
  match cs with
  | '\ufeff' :: _ => .error (.form .byteOrderMark cs)
  | _ => do
    let (v, rest) ← value spelling (3 * cs.length + 3) maxDepth (skipSpace cs)
    match skipSpace rest with
    | [] => return v
    | rest => .error (.form .extra rest)

end Spelled

/-- The fault of a text at the place where reading stopped. -/
def Stop.fault (cs : List Char) : Stop → Fault
  | .tooLong digits => .tooLong digits
  | .tooDeep container => .tooDeep container
  | .form problem rest =>
    let before := cs.take (cs.length - rest.length)
    let column := (before.reverse.takeWhile (· ≠ '\n')).length + 1
    .form problem (before.count '\n' + 1) column before.length

/-- The value of a JSON text, in whose strings halves of surrogate pairs are spelled in some way. -/
def parseSpelled (spelling : Text.Spelling) (s : String) : Except Fault Json :=
  (document spelling s.toList).mapError (Stop.fault s.toList)

/-- The value of a JSON text. -/
def parse (s : String) : Except Fault Json := parseSpelled .plain s

end Bindery.Json
