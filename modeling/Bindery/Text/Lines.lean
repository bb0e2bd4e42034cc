import Bindery.Text.Utf8

/-!
# Lines of a file

A file is read in pieces, and each piece is decoded as a whole before a line in it is delivered. A
line feed, a carriage return, and a carriage return with a line feed all end a line, and nothing
else does. A carriage return at the very end of a piece waits for what follows it. The text after
the last terminator is a line only if it is not empty.
-/

namespace Bindery.Lines

/-- The number of bytes in a piece. -/
def pieceSize : Nat := 8192

/-- The pieces of a file. -/
def pieces (bytes : List UInt8) : List (List UInt8) :=
  if bytes.isEmpty then [] else bytes.take pieceSize :: pieces (bytes.drop pieceSize)
termination_by bytes.length
decreasing_by
  have h : bytes ≠ [] := by simpa using ‹¬bytes.isEmpty = true›
  have := List.length_pos_iff.2 h
  simp only [List.length_drop, pieceSize]
  omega

/-- The text with every terminator as a line feed. It may start after a carriage return that
waits, and it tells whether it ends in one. -/
def unify (waiting : Bool) : List Char → List Char × Bool
  | [] => ([], waiting)
  | c :: cs =>
    if c = '\r' then
      let (text, last) := unify true cs
      (if waiting then '\n' :: text else text, last)
    else if c = '\n' then
      let (text, last) := unify false cs
      ('\n' :: text, last)
    else
      let (text, last) := unify false cs
      (if waiting then '\n' :: c :: text else c :: text, last)

/-- A character in front of the first line of a text. -/
def consLine (c : Char) : List (List Char) × List Char → List (List Char) × List Char
  | ([], left) => ([], c :: left)
  | (line :: lines, left) => ((c :: line) :: lines, left)

/-- The lines of a text that a line feed ends, and the text after the last of them. -/
def cut : List Char → List (List Char) × List Char
  | [] => ([], [])
  | c :: cs =>
    if c = '\n' then
      let (lines, left) := cut cs
      ([] :: lines, left)
    else consLine c (cut cs)

/-- The same where the text continues a line that has begun. -/
def continueLine (begun : List Char) : List (List Char) × List Char → List (List Char) × List Char
  | ([], left) => ([], begun ++ left)
  | (line :: lines, left) => ((begun ++ line) :: lines, left)

/-- What is carried from one piece to the next. -/
structure Carry where
  /-- The bytes of a character that is not complete. -/
  kept : List UInt8
  /-- Whether a carriage return waits for what follows it. -/
  waiting : Bool
  /-- The line that is not complete. -/
  begun : List Char
  deriving DecidableEq, Repr

/-- The lines that a file delivers, and the fault that ends the delivery, if there is one. -/
structure Delivery where
  /-- The lines, in order. -/
  lines : List (List Char)
  /-- Why no more are delivered. -/
  fault : Option Utf8.Fault
  deriving DecidableEq, Repr

/-- What is delivered at the end of a file. -/
def finish (c : Carry) : Delivery :=
  match Utf8.unfinished? 0 c.kept with
  | some f => ⟨[], some f⟩
  | none => ⟨if c.waiting || !c.begun.isEmpty then [c.begun] else [], none⟩

/-- What is delivered from the remaining pieces of a file. -/
def deliver (c : Carry) : List (List UInt8) → Delivery
  | [] => finish c
  | piece :: rest =>
    match Utf8.feed c.kept 0 piece with
    | .error f => ⟨[], some f⟩
    | .ok (cs, kept) =>
      let (text, waiting) := unify c.waiting cs
      let (lines, begun) := continueLine c.begun (cut text)
      let later := deliver ⟨kept, waiting, begun⟩ rest
      ⟨lines ++ later.lines, later.fault⟩

/-- The lines of a file. -/
def ofBytes (bytes : List UInt8) : Delivery := deliver ⟨[], false, []⟩ (pieces bytes)

end Bindery.Lines
