import Bindery.CommandLine.Help
import Bindery.CommandLine.Invocation
import Bindery.Generation

/-!
# Running a command

What a command line does to a tree, and what it writes to the two outputs. The settings come from
the environment, and each option that is set and not empty replaces one of them. A failure that is
not foreseen ends the run without an exit code.
-/

namespace Bindery.CommandLine

/-- How a run ends. -/
structure Exit where
  /-- The exit code, or the failure that left the run without one. -/
  code : Except Failure Nat
  /-- The text on the standard output. -/
  output : String
  /-- The text on the error output. -/
  errors : String

/-- The version of the program. -/
def version : String := "0.1.0"

/-- The path that an option replaces, if it is set. -/
def replaced (choices : Choices) (c : Choice) (path : Path) : Path :=
  ((choices.value? c).map Path.ofString).getD path

/-- The settings of a command. -/
def settingsOf (e : Environment) (command : Command) (choices : Choices) : Settings :=
  let base := Settings.default e
  { base with
    strict := choices.strict
    sources := replaced choices .sources base.sources
    events := replaced choices .events base.events
    header := replaced choices (if command = .header then .out else .headerOut) base.header
    docs := replaced choices (if command = .docs then .out else .docsOut) base.docs }

/-- What a command generates. -/
def generate (t : FileTree) (s : Settings) : Command → Generation.Outcome (List Written)
  | .version => (t, pure [])
  | .header =>
    let (t, written) := Generation.writeHeader t s
    (t, ⟨written.log, written.result.map ([·])⟩)
  | .docs =>
    let (t, written) := Generation.writeDocumentation t s
    (t, ⟨written.log, written.result.map ([·])⟩)
  | .all => Generation.writeAll t s

/-- Whether an entry is shown. -/
def isShown (verbose : Bool) (entry : Entry) : Bool := verbose || entry.level = .warning

/-- The exit after a generation. -/
def report (verbose : Bool) (written : Logged Failure (List Written)) : Exit :=
  let shown := (written.log.filter (isShown verbose)).map Entry.line
  match written.result with
  | .ok artifacts =>
    ⟨.ok 0, textOf (artifacts.map fun w => "generated: " ++ w.path.text), textOf shown⟩
  | .error failure =>
    if failure.isForeseen then ⟨.ok 1, "", textOf (shown ++ ["error: " ++ failure.message])⟩
    else ⟨.error failure, "", textOf shown⟩

/-- Running a command line in a tree. -/
def run (e : Environment) (t : FileTree) (texts : List String) : FileTree × Exit :=
  match invocation texts with
  | .error (.help of) => (t, ⟨.ok 0, helpText of, ""⟩)
  | .error (.misuse of m) => (t, ⟨.ok 2, "", misuseText of m⟩)
  | .ok (.version, _) => (t, ⟨.ok 0, textOf [version], ""⟩)
  | .ok (command, choices) =>
    let (t, written) := generate t (settingsOf e command choices) command
    (t, report choices.verbose written)

end Bindery.CommandLine
