import Bindery.FileTree.Path
import Bindery.Header.Document
import Bindery.Scan

/-!
# Settings

Where a generation reads and writes. Every path has a place in the layout of the tools directory,
which a variable of the environment may replace.
-/

namespace Bindery

/-- The variables of the environment that matter here; an empty one counts as absent. -/
structure Environment where
  /-- The directory of annotated sources. -/
  sources : Option String := none
  /-- The event schema. -/
  events : Option String := none
  /-- The directory of both outputs. -/
  output : Option String := none
  /-- The name of the operating system. -/
  system : Option String := none
  deriving DecidableEq, Repr

/-- The names of the variables. -/
def Environment.names : List String :=
  ["OMPCAPI_GEN_CAPI_DIR", "OMPCAPI_GEN_EVENTS_FILE", "OMPCAPI_GEN_OUTPUT_DIR", "OMPCAPI_GEN_OS"]

/-- The environment of some variables with their values. -/
def Environment.ofVariables (pairs : List (String × String)) : Environment :=
  let given (name : String) : Option String := (Keyed.get? name pairs).filter (!·.isEmpty)
  ⟨given "OMPCAPI_GEN_CAPI_DIR", given "OMPCAPI_GEN_EVENTS_FILE", given "OMPCAPI_GEN_OUTPUT_DIR",
    given "OMPCAPI_GEN_OS"⟩

/-- The directory of annotated sources. -/
def Environment.sourcesPath (e : Environment) : Path :=
  .ofString (e.sources.getD "../../Server/Components/CAPI/Impl")

/-- The file of the event schema. -/
def Environment.eventsPath (e : Environment) : Path :=
  .ofString (e.events.getD "../apidocs/events.json")

/-- The file of the header. -/
def Environment.headerPath (e : Environment) : Path :=
  match e.output with
  | some directory => (Path.ofString directory).join (.below ["ompcapi.h"])
  | none => .ofString "../include/ompcapi.h"

/-- The file of the documentation. -/
def Environment.docsPath (e : Environment) : Path :=
  match e.output with
  | some directory => (Path.ofString directory).join (.below ["api.json"])
  | none => .ofString "../apidocs/api.json"

/-- What a generation needs to know. -/
structure Settings where
  /-- The directory of annotated sources. -/
  sources : Path
  /-- The file of the event schema. -/
  events : Path
  /-- The file of the header. -/
  header : Path
  /-- The file of the documentation. -/
  docs : Path
  /-- The end of the names of source files. -/
  suffix : String := "APIs.cpp"
  /-- The text that marks an annotation. -/
  marker : String := Signature.marker
  /-- The name of the library. -/
  library : String := "$CAPI"
  /-- Whether duplicates are refused. -/
  strict : Bool := false
  deriving DecidableEq, Repr

/-- The settings of an environment. -/
def Settings.default (e : Environment) : Settings where
  sources := e.sourcesPath
  events := e.eventsPath
  header := e.headerPath
  docs := e.docsPath

/-- What becomes of duplicates. -/
def Settings.duplicates (s : Settings) : Duplicates := if s.strict then .refuse else .replace

end Bindery
