import Bindery.CommandLine.Option

/-!
# Usage and help

The texts that the program shows about itself and about each command.
-/

namespace Bindery.CommandLine

/-- The name under which the program, or one of its commands, shows its messages. -/
def programName : Option Command → String
  | none => "ompcapi-gen"
  | some command => "ompcapi-gen " ++ command.name

/-- The lines of the usage. -/
def usageLines : Option Command → List String
  | none => [
    "usage: ompcapi-gen [-h] \x7bversion,header,docs,all\x7d ..."]
  | some .version => [
    "usage: ompcapi-gen version [-h]"]
  | some .header => [
    "usage: ompcapi-gen header [-h] [--capi-dir CAPI_DIR] [--strict] [-v]",
    "                          [--events EVENTS] [--out OUT]"]
  | some .docs => [
    "usage: ompcapi-gen docs [-h] [--capi-dir CAPI_DIR] [--strict] [-v] [--out OUT]"]
  | some .all => [
    "usage: ompcapi-gen all [-h] [--capi-dir CAPI_DIR] [--strict] [-v]",
    "                       [--events EVENTS] [--header-out HEADER_OUT]",
    "                       [--docs-out DOCS_OUT]"]

/-- The lines of the help after the usage. -/
def detailLines : Option Command → List String
  | none => [
    "positional arguments:",
    "  \x7bversion,header,docs,all\x7d",
    "    version             Print ompcapi-gen version.",
    "    header              Generate the single-file C header (ompcapi.h).",
    "    docs                Generate the API documentation document (api.json).",
    "    all                 Generate both the header and the API documentation.",
    "",
    "options:",
    "  -h, --help            show this help message and exit"]
  | some .version => [
    "options:",
    "  -h, --help  show this help message and exit"]
  | some .header => [
    "options:",
    "  -h, --help           show this help message and exit",
    "  --capi-dir CAPI_DIR  Directory scanned for *APIs.cpp files (default:",
    "                       OMPCAPI_GEN_CAPI_DIR or",
    "                       ../../Server/Components/CAPI/Impl).",
    "  --strict             Fail on duplicate Group_Name symbols instead of",
    "                       warning.",
    "  -v, --verbose        Enable debug logging.",
    "  --events EVENTS      Event schema JSON (default: ../apidocs/events.json).",
    "  --out OUT            Output header path (default: ../include/ompcapi.h)."]
  | some .docs => [
    "options:",
    "  -h, --help           show this help message and exit",
    "  --capi-dir CAPI_DIR  Directory scanned for *APIs.cpp files (default:",
    "                       OMPCAPI_GEN_CAPI_DIR or",
    "                       ../../Server/Components/CAPI/Impl).",
    "  --strict             Fail on duplicate Group_Name symbols instead of",
    "                       warning.",
    "  -v, --verbose        Enable debug logging.",
    "  --out OUT            Output path (default: ../apidocs/api.json). A .msgpack",
    "                       suffix writes MessagePack."]
  | some .all => [
    "options:",
    "  -h, --help            show this help message and exit",
    "  --capi-dir CAPI_DIR   Directory scanned for *APIs.cpp files (default:",
    "                        OMPCAPI_GEN_CAPI_DIR or",
    "                        ../../Server/Components/CAPI/Impl).",
    "  --strict              Fail on duplicate Group_Name symbols instead of",
    "                        warning.",
    "  -v, --verbose         Enable debug logging.",
    "  --events EVENTS       Event schema JSON (default: ../apidocs/events.json).",
    "  --header-out HEADER_OUT",
    "                        Output header path.",
    "  --docs-out DOCS_OUT   Output API documentation path."]

/-- Lines in writing, each with its end. -/
def textOf (lines : List String) : String := String.join (lines.map (· ++ "\n"))

/-- The help. -/
def helpText (of : Option Command) : String := textOf (usageLines of ++ [""] ++ detailLines of)

/-- The usage and the text of a misuse. -/
def misuseText (of : Option Command) (m : Misuse) : String :=
  textOf (usageLines of ++ [programName of ++ ": error: " ++ m.message])

end Bindery.CommandLine
