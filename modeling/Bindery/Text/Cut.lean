/-!
# Cuts of a text

Taking a known text from the front of another, cutting a text at the first occurrence of a
separator, and cutting it at all occurrences of a character.
-/

namespace Bindery.Text

/-- What follows a known text at the front of another. -/
def dropFront? : (front text : List Char) → Option (List Char)
  | [], text => some text
  | _ :: _, [] => none
  | f :: front, c :: text => if f = c then dropFront? front text else none

/-- What stands before and after the first occurrence of a separator. -/
def cutAt? (separator : List Char) : List Char → Option (List Char × List Char)
  | [] => (dropFront? separator []).map ([], ·)
  | c :: cs =>
    match dropFront? separator (c :: cs) with
    | some rest => some ([], rest)
    | none => (cutAt? separator cs).map fun (before, rest) => (c :: before, rest)

/-- Whether a text ends with another. -/
def endsWith (ending text : List Char) : Bool := (dropFront? ending.reverse text.reverse).isSome

/-- The fields of a text between the occurrences of a character; there is always at least one. -/
def fields (separator : Char) : List Char → List (List Char)
  | [] => [[]]
  | c :: cs =>
    if c = separator then [] :: fields separator cs
    else
      match fields separator cs with
      | [] => [[c]]
      | field :: rest => (c :: field) :: rest

/-- A front can be taken exactly where the text is that front and a rest. -/
theorem dropFront?_eq_some_iff {front text rest : List Char} :
    dropFront? front text = some rest ↔ text = front ++ rest := by
  induction front generalizing text with
  | nil => simp [dropFront?]
  | cons f front ih =>
    cases text with
    | nil => simp [dropFront?]
    | cons c text =>
      by_cases h : f = c
      · subst h
        simp [dropFront?, ih]
      · simp [dropFront?, h, Ne.symm h]

end Bindery.Text
