import Bindery.Documentation
import Bindery.Event.Load
import Bindery.Header.Document
import Bindery.Scan
import Bindery.Settings

/-!
# Generation

Scanning, assembling and writing. Everything is read and assembled before anything is written, so
a failure before the write leaves the tree as it was, and a failed write leaves at most new
directories. That a text has no bytes comes out only when its file is open, which is then left
empty: the event schema can bring halves of surrogate pairs into a header, the sources cannot.
-/

namespace Bindery

/-- What a generation writes. -/
inductive Artifact
  | header
  | docs
  deriving DecidableEq, Repr

/-- The name of an artifact in messages. -/
def Artifact.name : Artifact → String
  | .header => "header"
  | .docs => "API docs"

/-- Why a generation fails. -/
inductive Failure
  | scan (failure : ScanFailure)
  | events (fault : EventFault)
  | sentinel (missing : Header.MissingSentinel)
  | encoding (fault : MessagePack.Fault)
  | unwritten (artifact : Artifact) (path : Path) (fault : FileFault)
  | unencodable (halves : Text.Halves)
  deriving DecidableEq, Repr

/-- The text of a failure. -/
def Failure.message : Failure → String
  | .scan failure => failure.message
  | .events fault => fault.message
  | .sentinel missing => missing.message
  | .encoding fault => fault.message
  | .unwritten artifact path fault =>
    fault.during ("failed to write " ++ artifact.name ++ " " ++ path.text)
  | .unencodable halves => halves.message

/-- Whether a failure is one that a generation foresees. The others come from what it relies on: a
document nested too deep, a number out of range, a path that the system does not take, a text that
has no bytes. -/
def Failure.isForeseen : Failure → Bool
  | .scan (.sources (.unreadable _ fault)) => fault.isRefusal
  | .events (.tooDeep _) => false
  | .encoding _ => false
  | .unwritten _ _ fault => fault.isRefusal
  | .unencodable _ => false
  | _ => true

/-- What was written. -/
structure Written where
  /-- The file. -/
  path : Path
  /-- The number of functions in it. -/
  records : Nat
  deriving DecidableEq, Repr

namespace Generation

/-- The form of a documentation file, by the ending of its name. -/
def formatOf (p : Path) : Documentation.Format :=
  if p.suffix = ".msgpack" then .messagePack else .json

/-- A tree, and the report of what was done to it. -/
abbrev Outcome (α : Type) := FileTree × Logged Failure α

/-- What follows a logged result in the tree: the next activity if it succeeded, its failure
otherwise. -/
def andThen {α β : Type} (t : FileTree) (x : Logged Failure α) (next : α → Outcome β) : Outcome β :=
  match x.result with
  | .error e => (t, ⟨x.log, .error e⟩)
  | .ok a =>
    let (t, y) := next a
    (t, ⟨x.log ++ y.log, y.result⟩)

/-- Writing the bytes of an artifact. -/
def emit (t : FileTree) (artifact : Artifact) (p : Path) (content : List UInt8) : Outcome Unit :=
  match t.writeBelow p content with
  | (t, .ok ()) => (t, pure ())
  | (t, .error fault) => (t, .fail (.unwritten artifact p fault))

/-- Writing the text of an artifact, in which there may be halves of surrogate pairs. The file is
open before they come out, and stays empty. -/
def emitText (t : FileTree) (artifact : Artifact) (p : Path) (content : List UInt8) :
    Option Text.Halves → Outcome Unit
  | none => emit t artifact p content
  | some halves =>
    let (t, opened) := emit t artifact p []
    andThen t opened fun () => (t, .fail (.unencodable halves))

/-- Writing a documentation file. -/
def writeDocs (t : FileTree) (document : Json) (p : Path) : Outcome Unit :=
  match Documentation.encode document (formatOf p) with
  | .error fault => (t, .fail (.encoding fault))
  | .ok content => emit t .docs p content

/-- The surface of the header. -/
def headerSurface (t : FileTree) (s : Settings) : Logged ScanFailure Surface :=
  Scan.surface t s.sources ⟨s.suffix, ⟨.header, false, s.marker⟩, s.duplicates⟩

/-- The surface of the documentation. -/
def docsSurface (t : FileTree) (s : Settings) : Logged ScanFailure Surface :=
  Scan.documentationSurface t s.sources s.suffix s.marker s.duplicates

/-- The header of the sources and the event schema. -/
def header (t : FileTree) (s : Settings) : Logged Failure Header := do
  let surface ← (headerSurface t s).mapError .scan
  let events ← .ofExcept ((EventSchema.load .header t s.events).mapError .events)
  return { surface, events, library := s.library }

/-- The first halves of surrogate pairs in the text of a header. Only its events can hold any, and
they come out by spelling the events in another way. -/
def headerHalves? (t : FileTree) (s : Settings) (h : Header) (text : String) :
    Option Text.Halves := do
  let events ← (EventSchema.loadSpelled .numbered .header t s.events).toOption
  if events = h.events then none
  else
    let numbered ← { h with events }.render.toOption
    Text.halves? text numbered

/-- The report of a written header. -/
def headerTotals (h : Header) : Entry :=
  ⟨.info, .generation, "wrote " ++ toString h.surface.size ++ " functions in " ++
    toString h.surface.groups.length ++ " groups, " ++ toString h.events.size ++ " events"⟩

/-- The report of a written documentation. -/
def docsTotals (s : Surface) : Entry :=
  ⟨.info, .generation, "wrote API docs for " ++ toString s.size ++ " functions"⟩

/-- Writing the header. -/
def writeHeader (t : FileTree) (s : Settings) : Outcome Written :=
  andThen t (header t s) fun h =>
    match h.render with
    | .error missing => (t, .fail (.sentinel missing))
    | .ok text =>
      let (t, written) := emitText t .header s.header (Utf8.encode text) (headerHalves? t s h text)
      andThen t written fun () => (t, ⟨[headerTotals h], .ok ⟨s.header, h.surface.size⟩⟩)

/-- Writing the documentation. -/
def writeDocumentation (t : FileTree) (s : Settings) : Outcome Written :=
  andThen t ((docsSurface t s).mapError .scan) fun surface =>
    let (t, written) := writeDocs t (Documentation.document surface) s.docs
    andThen t written fun () => (t, ⟨[docsTotals surface], .ok ⟨s.docs, surface.size⟩⟩)

/-- Writing both, the header first. -/
def writeAll (t : FileTree) (s : Settings) : Outcome (List Written) :=
  let (t, first) := writeHeader t s
  andThen t first fun header =>
    let (t, second) := writeDocumentation t s
    andThen t second fun docs => (t, pure [header, docs])

end Generation

end Bindery
