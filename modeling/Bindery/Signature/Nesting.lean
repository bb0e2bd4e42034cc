/-!
# Parentheses and top-level commas

How deep a text is in parentheses, the parenthesis that closes another, and the cuts of a text at
the commas outside all parentheses. Texts need not be balanced: the depth is an integer, and a
text that closes before it opens has a negative one.
-/

namespace Bindery.Signature

/-- What a character adds to the depth. -/
def weight (c : Char) : Int := if c = '(' then 1 else if c = ')' then -1 else 0

/-- How many more parentheses a text opens than it closes. -/
def excess : List Char → Int
  | [] => 0
  | c :: cs => weight c + excess cs

/-- A text is balanced when every parenthesis has its partner in it. -/
structure Balanced (cs : List Char) : Prop where
  /-- It opens as many as it closes. -/
  level : excess cs = 0
  /-- No beginning of it closes more than it opens. -/
  nonneg : ∀ p, p <+: cs → 0 ≤ excess p

/-- From a depth, the place of the first closing parenthesis that brings the depth to zero. -/
def closeFrom (depth : Int) : List Char → Option Nat
  | [] => none
  | c :: cs =>
    if c = ')' ∧ depth = 1 then some 0 else (closeFrom (depth + weight c) cs).map (· + 1)

/-- The place of the parenthesis that closes the one at `start`. -/
def closing? (cs : List Char) (start : Nat) : Option Nat :=
  (closeFrom 0 (cs.drop start)).map (· + start)

/-- A character in front of the first part. -/
def consFirst (c : Char) : List (List Char) → List (List Char)
  | [] => [[c]]
  | part :: parts => (c :: part) :: parts

/-- The parts of a text that starts at some depth, cut at each comma where the depth is zero. -/
def splitFrom (depth : Int) : List Char → List (List Char)
  | [] => [[]]
  | c :: cs =>
    if c = ',' ∧ depth = 0 then [] :: splitFrom 0 cs
    else consFirst c (splitFrom (depth + weight c) cs)

/-- The parts of a text between its top-level commas; there is always at least one. -/
def split (cs : List Char) : List (List Char) := splitFrom 0 cs

/-- The excess of two texts together is the sum. -/
theorem excess_append (a b : List Char) : excess (a ++ b) = excess a + excess b := by
  induction a with
  | nil => simp [excess]
  | cons c cs ih => simp [excess, ih, Int.add_assoc]

/-- No text is without a part. -/
theorem splitFrom_ne_nil (depth : Int) (cs : List Char) : splitFrom depth cs ≠ [] := by
  cases cs with
  | nil => simp [splitFrom]
  | cons c cs =>
    rw [splitFrom]
    split
    · simp
    · cases h : splitFrom (depth + weight c) cs <;> simp [consFirst]

end Bindery.Signature
