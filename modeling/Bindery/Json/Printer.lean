import Bindery.Json.Basic
import Bindery.Text.Hex

/-!
# Printing JSON

Documents with two blanks of indent per level, one item or member on a line, and a final newline.
Strings keep every character but quotes, backslashes and the controls below the blank.

Every function writes in front of the text that follows, so that each character is written once,
however deep it stands.
-/

namespace Bindery.Json

/-- A character inside a string. -/
def escaped (c : Char) : List Char :=
  if c = '"' then ['\\', '"']
  else if c = '\\' then ['\\', '\\']
  else if c = '\x08' then ['\\', 'b']
  else if c = '\t' then ['\\', 't']
  else if c = '\n' then ['\\', 'n']
  else if c = '\x0c' then ['\\', 'f']
  else if c = '\r' then ['\\', 'r']
  else if c < ' ' then '\\' :: 'u' :: Text.hex 4 c.toNat
  else [c]

/-- A string with its quotes. -/
def printString (s : String) (rest : List Char) : List Char :=
  '"' :: s.toList.flatMap escaped ++ '"' :: rest

/-- A new line at a level of indent. -/
def newline (level : Nat) (rest : List Char) : List Char :=
  '\n' :: List.replicate (2 * level) ' ' ++ rest

mutual

/-- A value at a level of indent. -/
def print (level : Nat) : Json → (rest : List Char) → List Char
  | .null, rest => "null".toList ++ rest
  | .bool true, rest => "true".toList ++ rest
  | .bool false, rest => "false".toList ++ rest
  | .int n, rest => (toString n).toList ++ rest
  | .real spelling, rest => spelling.toList ++ rest
  | .text s, rest => printString s rest
  | .list [], rest => '[' :: ']' :: rest
  | .list (v :: vs), rest =>
    '[' :: newline (level + 1) (print (level + 1) v (printItems (level + 1) vs
      (newline level (']' :: rest))))
  | .object [], rest => '\x7b' :: '\x7d' :: rest
  | .object ((key, v) :: ms), rest =>
    '\x7b' :: newline (level + 1) (printString key (':' :: ' ' :: print (level + 1) v
      (printMembers (level + 1) ms (newline level ('\x7d' :: rest)))))

/-- The items of a list after the first. -/
def printItems (level : Nat) : List Json → (rest : List Char) → List Char
  | [], rest => rest
  | v :: vs, rest => ',' :: newline level (print level v (printItems level vs rest))

/-- The members of an object after the first. -/
def printMembers (level : Nat) : List (String × Json) → (rest : List Char) → List Char
  | [], rest => rest
  | (key, v) :: ms, rest =>
    ',' :: newline level (printString key (':' :: ' ' :: print level v
      (printMembers level ms rest)))

end

/-- A document in writing. -/
def render (v : Json) : String := String.ofList (print 0 v ['\n'])

end Bindery.Json
