import Bindery.Text.Cut

/-!
# Paths

Paths as they are written, without a look at any file: repeated slashes, `.` components and a
final slash are dropped, and `..` components are kept. The path without components is written `.`.
-/

namespace Bindery

/-- What a path starts from: where the reader stands, or the top, which two slashes name apart. -/
inductive Anchor
  | here
  | top
  | doubleTop
  deriving DecidableEq, Repr

/-- An anchor in writing. -/
def Anchor.text : Anchor → String
  | .here => ""
  | .top => "/"
  | .doubleTop => "//"

/-- A path: its anchor and its components. -/
structure Path where
  /-- What it starts from. -/
  anchor : Anchor
  /-- The names to follow, `..` for a step back. -/
  parts : List String
  deriving DecidableEq, Repr

namespace Path

/-- The anchor of a text. Exactly two leading slashes are told apart from one and from more. -/
def anchorOf : List Char → Anchor
  | '/' :: '/' :: '/' :: _ => .top
  | '/' :: '/' :: _ => .doubleTop
  | '/' :: _ => .top
  | _ => .here

/-- The components of a text. -/
def partsOf (cs : List Char) : List String :=
  ((Text.fields '/' cs).filter fun field => !field.isEmpty && field != ['.']).map String.ofList

/-- The path that a text writes. -/
def ofString (s : String) : Path := ⟨anchorOf s.toList, partsOf s.toList⟩

/-- A path below where the reader stands. -/
def below (parts : List String) : Path := ⟨.here, parts⟩

/-- A path in writing. -/
def text (p : Path) : String :=
  let s := p.anchor.text ++ "/".intercalate p.parts
  if s.isEmpty then "." else s

/-- The path that follows a second one from the first; one with an anchor of its own replaces it.
-/
def join (p q : Path) : Path :=
  match q.anchor with
  | .here => ⟨p.anchor, p.parts ++ q.parts⟩
  | _ => q

/-- The path without its last component. -/
def parent (p : Path) : Path := ⟨p.anchor, p.parts.dropLast⟩

/-- Whether a null character stands in the path. Such a path can be written down and leads nowhere.
-/
def hasNull (p : Path) : Bool := p.parts.any fun part => part.toList.contains '\x00'

/-- The last component, or the empty text. -/
def name (p : Path) : String := p.parts.getLastD ""

/-- The last component from its last dot on; empty if that dot comes first or last, or there is
none. -/
def suffix (p : Path) : String :=
  let reversed := p.name.toList.reverse
  let ending := reversed.takeWhile (· ≠ '.')
  match reversed.drop ending.length with
  | _ :: _ :: _ => if ending.isEmpty then "" else String.ofList ('.' :: ending.reverse)
  | _ => ""

end Path

end Bindery
