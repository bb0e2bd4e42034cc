import Bindery.FileTree.Basic
import Bindery.Signature.Line
import Bindery.Surface.Basic
import Bindery.Text.Lines

/-!
# Scans

The files of a source tree, their annotation lines, and the surface that those give. Files stand
in the order of their paths below the root, compared as texts. A file is read piece by piece, so
the lines before a place that is no text are delivered, and what is wrong in one of them is found
first.
-/

namespace Bindery

/-- Why sources cannot be read. -/
inductive ScanFault
  | noDirectory (root : Path)
  | notText (path : String) (fault : Utf8.Fault)
  | unreadable (path : String) (fault : FileFault)
  deriving DecidableEq, Repr

/-- The text of a fault. -/
def ScanFault.message : ScanFault → String
  | .noDirectory root => "source directory not found: " ++ root.text
  | .notText path fault => path ++ " is not valid UTF-8: " ++ fault.message
  | .unreadable path fault => fault.during ("failed to read " ++ path)

/-- Why a scan gives no surface. -/
inductive ScanFailure
  | sources (fault : ScanFault)
  | line (fault : Signature.Fault)
  | duplicate (clash : Clash)
  deriving DecidableEq, Repr

/-- The text of a failure. -/
def ScanFailure.message : ScanFailure → String
  | .sources fault => fault.message
  | .line fault => fault.message
  | .duplicate clash => clash.message

/-- A source file below a root. -/
structure SourceFile where
  /-- The names that lead to it from the root. -/
  names : Location
  /-- Its bytes. -/
  content : List UInt8
  deriving DecidableEq, Repr

/-- The path of a file below its root. -/
def SourceFile.relative (f : SourceFile) : String := (Path.below f.names).text

/-- The path of a file with the root in front. -/
def SourceFile.path (root : Path) (f : SourceFile) : Path := root.join (Path.below f.names)

/-- One line of a file that starts with the marker. -/
structure MarkedLine where
  /-- The file. -/
  file : SourceFile
  /-- The line's number, counted from one. -/
  number : Nat
  /-- The line. -/
  text : String
  deriving DecidableEq, Repr

/-- The lines that files deliver, and the fault that ends the delivery, if there is one. -/
structure Listing where
  /-- The lines, in order. -/
  lines : List MarkedLine
  /-- Why no more are delivered. -/
  fault : Option ScanFault
  deriving DecidableEq, Repr

/-- What a scan looks for and how it reads it. -/
structure ScanSettings where
  /-- The end of the names of source files. -/
  suffix : String := "APIs.cpp"
  /-- How annotation lines are read. -/
  reading : Signature.Reading := {}
  /-- What becomes of duplicates. -/
  duplicates : Duplicates := .replace
  deriving DecidableEq, Repr

namespace Scan

/-- Whether the last of some names ends with a suffix. -/
def isSource (suffix : String) (names : Location) : Bool :=
  Text.endsWith suffix.toList (names.getLastD "").toList

/-- The source files below a root, in the order of their paths. -/
def sourceFiles (t : FileTree) (root : Path) (suffix : String) :
    Except ScanFault (List SourceFile) :=
  match t.locate root with
  | .error _ => .error (.noDirectory root)
  | .ok place =>
    match t.node? place with
    | some .directory =>
      let found := (t.filesBelow place).filter fun (names, _) => isSource suffix names
      let files := found.map fun (names, content) => (⟨names, content⟩ : SourceFile)
      .ok (files.mergeSort fun a b => decide (a.relative ≤ b.relative))
    | _ => .error (.noDirectory root)

/-- The lines of the file at a path, up to the first fault. A fault shows the path as it was
given. -/
def fileLines (t : FileTree) (path : String) : List String × Option ScanFault :=
  match t.read (.ofString path) with
  | .error f => ([], some (.unreadable path f))
  | .ok bytes =>
    let delivery := Lines.ofBytes bytes
    (delivery.lines.map String.ofList, delivery.fault.map (.notText path ·))

/-- The lines of a file that start with the marker, counted from `number`. -/
def markedFrom (marker : List Char) (file : SourceFile) :
    (number : Nat) → List (List Char) → List MarkedLine
  | _, [] => []
  | number, line :: lines =>
    let later := markedFrom marker file (number + 1) lines
    if (Text.dropFront? marker line).isSome then ⟨file, number, String.ofList line⟩ :: later
    else later

/-- The marked lines of files below a root, one file after another. -/
def markedLines (root : Path) (marker : String) : List SourceFile → Listing
  | [] => ⟨[], none⟩
  | file :: files =>
    let delivery := Lines.ofBytes file.content
    let lines := markedFrom marker.toList file 1 delivery.lines
    match delivery.fault with
    | some f => ⟨lines, some (.notText (file.path root).text f)⟩
    | none =>
      let later := markedLines root marker files
      ⟨lines ++ later.lines, later.fault⟩

/-- The annotation lines below a root. -/
def annotationLines (t : FileTree) (root : Path) (suffix marker : String) :
    Except ScanFault Listing :=
  (sourceFiles t root suffix).map (markedLines root marker)

/-- The surface with the record of one more line. -/
def addLine (settings : ScanSettings) (s : Surface) (l : MarkedLine) :
    Logged ScanFailure Surface := do
  let source : Source := ⟨l.file.relative, l.number⟩
  let r ← (Signature.read settings.reading (some source) l.text).mapError .line
  (s.add settings.duplicates r).mapError .duplicate

/-- The report of a scan that is complete. -/
def totals (root : Path) (s : Surface) : Entry :=
  ⟨.debug, .scan, "scanned " ++ toString s.size ++ " records in " ++ toString s.groups.length ++
    " groups under " ++ root.text⟩

/-- The surface of the annotation lines below a root. -/
def surface (t : FileTree) (root : Path) (settings : ScanSettings) : Logged ScanFailure Surface :=
  match annotationLines t root settings.suffix settings.reading.marker with
  | .error f => .fail (.sources f)
  | .ok listing => do
    let s ← listing.lines.foldlM (addLine settings) Surface.empty
    match listing.fault with
    | some f => .fail (.sources f)
    | none => ⟨[totals root s], .ok s⟩

/-- The surface for the documentation, which has its own spellings and names records by their
whole symbols. -/
def documentationSurface (t : FileTree) (root : Path) (suffix marker : String)
    (duplicates : Duplicates) : Logged ScanFailure Surface :=
  surface t root ⟨suffix, ⟨.docs, true, marker⟩, duplicates⟩

end Scan

end Bindery
