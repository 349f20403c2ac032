import ErrnoBindings.Artifact.Basic
import ErrnoBindings.CLiteral.Basic

/-!
# The C source

The source includes the header by its logical name, holds the variable, and defines the function. The function
compares its argument with one constant after the other, in table order, and returns the description of the first
that is equal. It is a chain of comparisons and no `switch`, since two constants may well have one value.
-/

namespace ErrnoBindings

/-- The line of the function that stands for a row. -/
def Row.comparison (r : Row) : Text :=
  "  if (e == ".toList ++ r.constantName ++ ") return ".toList ++ CLiteral.encode r.description ++ ";".toList

namespace Table

/-- The lines of the source. -/
def definitionLines (t : Table) : List Text :=
  ["#include <".toList ++ Artifact.declarations.logicalName ++ ">".toList,
    [],
    "int32_t ".toList ++ errnoVariable ++ " = 0;".toList,
    [],
    "const char* ".toList ++ strerrorFunction ++ "(int32_t e) \x7b".toList] ++
  t.rows.map Row.comparison ++
  ["  return ".toList ++ CLiteral.encode unknownError ++ ";".toList,
    "\x7d".toList]

/-- The source. -/
def definitions (t : Table) : Text := unlines t.definitionLines

end Table

end ErrnoBindings
