import Bindery.Settings

/-!
# Where a library lies

The name of the operating system, the ending of its shared libraries, and the path of a library
below a directory. Only Windows has an ending of its own.
-/

namespace Bindery

/-- A platform that is none of the known ones. -/
structure UnsupportedPlatform where
  /-- The platform's name. -/
  platform : String
  deriving DecidableEq, Repr

/-- The text of the failure. -/
def UnsupportedPlatform.message (u : UnsupportedPlatform) : String :=
  "unsupported platform: " ++ u.platform

namespace Library

/-- The name of the operating system: the one that the environment states, or else that of the
platform. -/
def system (e : Environment) (platform : String) : Except UnsupportedPlatform String :=
  match e.system with
  | some name => .ok name
  | none =>
    if (Text.dropFront? "win".toList platform.toList).isSome then .ok "windows"
    else if platform = "darwin" then .ok "darwin"
    else if (Text.dropFront? "linux".toList platform.toList).isSome then .ok "linux"
    else .error ⟨platform⟩

/-- The ending of the shared libraries of an operating system. -/
def endingOf (system : String) : String := if system = "windows" then ".dll" else ".so"

/-- The ending of shared libraries, on the named operating system or on this one. -/
def ending (e : Environment) (platform : String) (named : Option String) :
    Except UnsupportedPlatform String :=
  match named.filter (!·.isEmpty) with
  | some name => .ok (endingOf name)
  | none => (system e platform).map endingOf

/-- The path of a library of some ending below a directory. -/
def pathOf (root : Path) (name ending : String) : Path :=
  (root.join (.below ["components"])).join (.ofString (name ++ ending))

/-- The path of a library below a directory, or below where the reader stands. -/
def path (e : Environment) (platform : String) (name : String) (root : Option Path)
    (named : Option String) : Except UnsupportedPlatform Path :=
  (ending e platform named).map (pathOf (root.getD (.below [])) name)

end Library

end Bindery
