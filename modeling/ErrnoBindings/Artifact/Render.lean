import ErrnoBindings.Artifact.Declarations
import ErrnoBindings.Artifact.Definitions

/-!
# Rendering

Each artifact is a function of the table alone. Nothing else can enter the text: not the root, not the source that
the table came from, not a flag.
-/

namespace ErrnoBindings

/-- The text of an artifact. -/
def Artifact.render : Artifact → Table → Text
  | declarations, t => t.declarations
  | definitions, t => t.definitions

end ErrnoBindings
