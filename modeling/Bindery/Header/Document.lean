import Bindery.Header.Program
import Bindery.Text.Utf8

/-!
# The header

The whole header of a surface and an event schema. Its sections stand in a fixed order, in which
every type is declared before it is used.
-/

namespace Bindery

/-- What a header is made for. -/
structure Header where
  /-- The functions. -/
  surface : Surface
  /-- The events. -/
  events : EventSchema
  /-- The kinds of game objects. -/
  entities : List String := Header.entityTypes
  /-- The name of the library. -/
  library : String := "$CAPI"
  /-- The function that the library has to export. -/
  sentinel : Header.Slot := ⟨"Core", "TickCount"⟩
  deriving DecidableEq, Repr

namespace Header

/-- The declarations of a header, before its initializer. -/
def declarations (h : Header) : List Item :=
  preamble ++ entityAliases h.entities ++ functionTypes h.surface ++ eventTypes h.events ++
    [.line ""] ++ dispatchTables h.surface ++ rootAggregate h.surface

/-- The initializer of a header. -/
def statements (h : Header) : Except MissingSentinel (List Statement) :=
  initializer h.surface h.library h.sentinel

/-- The lines of a header. -/
def lines (h : Header) : Except MissingSentinel (List String) :=
  h.statements.map fun ss => linesOf h.declarations ++ functionLines ss ++ linesOf footer

/-- A header in writing. -/
def render (h : Header) : Except MissingSentinel String :=
  h.lines.map fun ls => "\n".intercalate ls ++ "\n"

end Header

end Bindery
