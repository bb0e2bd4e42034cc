import Bindery.Event.Schema
import Bindery.FileTree.Basic
import Bindery.Json.Reader
import Bindery.Text.Lines

/-!
# Loading event schemas

The schema of a file. The whole file is decoded, its line terminators become line feeds, and the
text is read as JSON.
-/

namespace Bindery

/-- Why a file gives no event schema. -/
inductive EventFault
  | missing (path : Path)
  | unreadable (path : Path) (fault : FileFault)
  | notText (path : Path) (fault : Utf8.Fault)
  | notJson (path : Path) (fault : Json.Fault)
  /-- The document is nested deeper than is followed, which tells nothing of its form. -/
  | tooDeep (container : Json.Container)
  | form (defect : EventDefect)
  deriving DecidableEq, Repr

/-- The text of a fault. -/
def EventFault.message : EventFault → String
  | .missing path => "event schema not found at " ++ path.text
  | .unreadable path fault => "failed to parse event schema " ++ path.text ++ ": " ++ fault.message
  | .notText path fault => "failed to parse event schema " ++ path.text ++ ": " ++ fault.message
  | .notJson path fault => "failed to parse event schema " ++ path.text ++ ": " ++ fault.message
  | .tooDeep container => (Json.Fault.tooDeep container).message
  | .form defect => defect.message

namespace EventSchema

/-- A text with every line terminator as a line feed. -/
def unifyLines (cs : List Char) : List Char :=
  let (text, waiting) := Lines.unify false cs
  if waiting then text ++ ['\n'] else text

/-- The schema of the file at a path, in whose names and types halves of surrogate pairs are spelled
in some way. -/
def loadSpelled (spelling : Text.Spelling) (types : TypeMap) (t : FileTree) (p : Path) :
    Except EventFault EventSchema :=
  if !t.has p then .error (.missing p)
  else
    match t.read p with
    | .error f => .error (.unreadable p f)
    | .ok bytes =>
      match Utf8.decode bytes with
      | .error f => .error (.notText p f)
      | .ok cs =>
        match Json.parseSpelled spelling (String.ofList (unifyLines cs)) with
        | .error (.tooDeep container) => .error (.tooDeep container)
        | .error f => .error (.notJson p f)
        | .ok v => (read types v).mapError .form

/-- The schema of the file at a path. -/
def load (types : TypeMap) (t : FileTree) (p : Path) : Except EventFault EventSchema :=
  loadSpelled .plain types t p

end EventSchema

end Bindery
