import Bindery.Header.Item

/-!
# The fixed parts of the header

What stands in every header before and after the declarations of a surface: the include guard, the
loader macros for both families of platforms, and the records that signatures share.
-/

namespace Bindery.Header

/-- The directive that tells Windows from everything else. -/
def windowsCheck : String := "#if defined(WIN32) || defined(_WIN32) || defined(__WIN32__)"

/-- The parts before the declarations. -/
def preamble : List Item := [
  .line "#ifndef OMPCAPI_H",
  .line "#define OMPCAPI_H",
  .line "",
  .line "#include <stdint.h>",
  .line "#include <stdbool.h>",
  .line "",
  .line "#ifndef CAPI_COMPONENT_BUILD",
  .line windowsCheck,
  .line "#include <Windows.h>",
  .line "#define LIBRARY_OPEN(path) LoadLibrary(path)",
  .line "#define LIBRARY_GET_ADDR(lib, symbol) GetProcAddress((HMODULE)lib, symbol)",
  .line "#else",
  .line "#include <dlfcn.h>",
  .line "#define LIBRARY_OPEN(path) dlopen(path, RTLD_LAZY | RTLD_LOCAL)",
  .line "#define LIBRARY_GET_ADDR dlsym",
  .line "#endif",
  .line "#endif",
  .line "",
  .line windowsCheck,
  .line "#define OMP_API_EXPORT __declspec(dllexport)",
  .line "#else",
  .line "#define OMP_API_EXPORT __attribute__((visibility(\"default\")))",
  .line "#endif",
  .line "",
  .line "// Events",
  .line "",
  .enumeration "EventPriorityType" ["EventPriorityType_Highest", "EventPriorityType_FairlyHigh",
    "EventPriorityType_Default", "EventPriorityType_FairlyLow", "EventPriorityType_Lowest"],
  .line "",
  .record "EventArgs_Common" ["int size;", "void** list;"],
  .line "",
  .function "EventCallback_Common" "bool" "struct EventArgs_Common* args",
  .line "",
  .line "// Components",
  .line "",
  .record "ComponentVersion" [
    "uint8_t major; ///< MAJOR version when you make incompatible API changes",
    "uint8_t minor; ///< MINOR version when you add functionality in a backwards compatible manner",
    "uint8_t patch; ///< PATCH version when you make backwards compatible bug fixes",
    "uint16_t prerel; ///< PRE-RELEASE version"],
  .line "",
  .function "ComponentOnReadyCallback" "void" "",
  .function "ComponentOnResetCallback" "void" "",
  .function "ComponentOnFreeCallback" "void" "",
  .line "",
  .line "/* Borrowed, read-only view. Callee does NOT copy or allocate.",
  .line "   Lifetime is tied to the source that produced it. */",
  .record "CAPIStringView" [
    "unsigned int len; /* string length */",
    "const char* data; /* may not be NUL-terminated */"],
  .line "",
  .line "/* Caller-provided, writable buffer. Callee copies into this.",
  .line "   'capacity' is total space available in 'data'. Callee sets 'len' written. */",
  .record "CAPIStringBuffer" [
    "unsigned int capacity; /* bytes available in 'data' */",
    "unsigned int len; /* bytes actually written (out) */",
    "char* data; /* writable buffer supplied by the caller */"],
  .line "",
  .line "#ifndef CAPI_COMPONENT_BUILD",
  .line ""]

/-- The parts after the initializer. -/
def footer : List Item := [.line "", .line "#endif", .line "", .line "#endif /* OMPCAPI_H */"]

/-- The kinds of game objects that signatures pass as handles. -/
def entityTypes : List String := [
  "Player", "Vehicle", "Menu", "TextDraw", "TextLabel", "Object", "PlayerObject",
  "PlayerTextLabel3D", "PlayerTextDraw", "Class", "GangZone", "Pickup", "NPC"]

end Bindery.Header
