/-!
# Blank characters

The characters that separate words, and the removal of blanks at both ends of a text. Everything
that reads annotations, type spellings or parameter lists uses this one class.
-/

namespace Bindery.Text

/-- A character is blank when it is one of the horizontal or vertical spaces of the Unicode
standard, or one of the four information separators U+001C to U+001F. -/
def isBlank (c : Char) : Bool :=
  let n := c.toNat
  (0x09 ≤ n && n ≤ 0x0d) || (0x1c ≤ n && n ≤ 0x20) || n == 0x85 || n == 0xa0 || n == 0x1680 ||
    (0x2000 ≤ n && n ≤ 0x200a) || n == 0x2028 || n == 0x2029 || n == 0x202f || n == 0x205f ||
    n == 0x3000

/-- The text without the blanks at its front. -/
def dropBlank (cs : List Char) : List Char := cs.dropWhile isBlank

/-- The text without the blanks at its end. -/
def dropFinalBlank (cs : List Char) : List Char := (dropBlank cs.reverse).reverse

/-- The text without the blanks at its two ends. -/
def strip (cs : List Char) : List Char := dropFinalBlank (dropBlank cs)

/-- Stripping, on strings. -/
def stripped (s : String) : String := String.ofList (strip s.toList)

@[simp] theorem toList_stripped (s : String) : (stripped s).toList = strip s.toList := by
  simp [stripped]

@[simp] theorem strip_nil : strip [] = [] := rfl

end Bindery.Text
