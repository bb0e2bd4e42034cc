import Bindery.Text.Hex
import Bindery.Text.Printable

/-!
# Quoted texts

How a message quotes a text: between single quotes, or between double quotes when the text itself
holds a single quote and no double one. Backslashes, the surrounding quote and everything that is
not printable are escaped, so that a quoted text is one printable line.
-/

namespace Bindery.Text

/-- The quote that surrounds a text. -/
def surroundingQuote (cs : List Char) : Char :=
  if cs.contains '\'' && !cs.contains '"' then '"' else '\''

/-- A character between two such quotes. -/
def quotedChar (quote c : Char) : List Char :=
  if c = quote ∨ c = '\\' then ['\\', c]
  else if c = '\t' then ['\\', 't']
  else if c = '\n' then ['\\', 'n']
  else if c = '\r' then ['\\', 'r']
  else if isPrintable c then [c]
  else if c.toNat ≤ 0xff then '\\' :: 'x' :: hex 2 c.toNat
  else if c.toNat ≤ 0xffff then '\\' :: 'u' :: hex 4 c.toNat
  else '\\' :: 'U' :: hex 8 c.toNat

/-- A text as a message quotes it. -/
def quote (cs : List Char) : List Char :=
  let q := surroundingQuote cs
  q :: cs.flatMap (quotedChar q) ++ [q]

/-- Quoting, on strings. -/
def quoted (s : String) : String := String.ofList (quote s.toList)

example : quote ['a', '\''] = ['"', 'a', '\'', '"'] := by decide
example : quote ['\'', '"'] = ['\'', '\\', '\'', '"', '\''] := by decide

end Bindery.Text
