import Bindery.Text.Hex

/-!
# Halves of surrogate pairs

A document can name one half of a surrogate pair without the other. That number is no character, so
a string cannot hold it, and it has no bytes in UTF-8. A text that may hold halves is given by how
it is spelled: a spelling chooses a character for each half, and every other code point stands for
itself. Two spellings that agree on no half differ exactly at the places of the halves.
-/

namespace Bindery.Text

/-- Whether a code point is a half of a surrogate pair, and so no character. -/
def isHalf (n : Nat) : Bool := 0xd800 ≤ n && n < 0xe000

/-- The characters that are written for halves. -/
abbrev Spelling := Nat → Char

/-- The spelling in which every half is the replacement character. -/
def Spelling.plain : Spelling := fun _ => '\ufffd'

/-- The spelling in which every half is a character of its own, one for private use that tells its
number. -/
def Spelling.numbered : Spelling := fun n => Char.ofNat (0xf0000 + n)

/-- The text of code points in a spelling. -/
def ofPoints (spelling : Spelling) (points : List Nat) : String :=
  String.ofList (points.map fun n => if isHalf n then spelling n else Char.ofNat n)

/-- The halves at the first place of a text that holds any. -/
structure Halves where
  /-- The code point of the first of them. -/
  first : Nat
  /-- Its place, counted from zero. -/
  position : Nat
  /-- How many of them follow each other, at least one. -/
  size : Nat
  deriving DecidableEq, Repr

/-- Why a text with halves has no bytes. -/
def Halves.message (h : Halves) : String :=
  let place :=
    if h.size = 1 then
      "character '\\u" ++ String.ofList (hex 4 h.first) ++ "' in position " ++ toString h.position
    else
      "characters in position " ++ toString h.position ++ "-" ++ toString (h.position + h.size - 1)
  "'utf-8' codec can't encode " ++ place ++ ": surrogates not allowed"

/-- The number of places at the front at which two texts differ. -/
def differing : List Char → List Char → Nat
  | a :: as, b :: bs => if a = b then 0 else differing as bs + 1
  | _, _ => 0

/-- The halves at the first place at which the plain and the numbered spelling of a text differ,
where the texts begin at a position. -/
def halvesFrom (position : Nat) : List Char → List Char → Option Halves
  | a :: as, b :: bs =>
    if a = b then halvesFrom (position + 1) as bs
    else some ⟨b.toNat - 0xf0000, position, differing as bs + 1⟩
  | _, _ => none

/-- The first halves of a text, by its plain and its numbered spelling. -/
def halves? (plain numbered : String) : Option Halves :=
  halvesFrom 0 plain.toList numbered.toList

end Bindery.Text
