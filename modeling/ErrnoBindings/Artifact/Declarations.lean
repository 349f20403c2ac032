import ErrnoBindings.Artifact.Basic

/-!
# The header

The header declares the variable and the function, and defines one constant for each row, in table order. Rows
that share a symbol are all written: which of them counts is the preprocessor's business, and a warning tells the
user. Everything stands inside an include guard.

The header is a list of lines first; `Table.declarations` is those lines with their newlines.
-/

namespace ErrnoBindings

/-- The line that defines a row's constant. -/
def Row.definition (r : Row) : Text :=
  "#define ".toList ++ r.constantName ++ ' ' :: constantValue r.value

namespace Table

/-- The lines that define the constants, under their note and with an empty line behind them; none for an empty
table. -/
def constantLines (t : Table) : List Text :=
  if t.rows = [] then [] else valuesNote :: t.rows.map Row.definition ++ [[]]

/-- The lines of the header. -/
def declarationLines (t : Table) : List Text :=
  ["#ifndef ".toList ++ includeGuard,
    "#define ".toList ++ includeGuard,
    [],
    "#include <stdint.h>".toList,
    [],
    "extern int32_t ".toList ++ errnoVariable ++ ";".toList,
    []] ++
  t.constantLines ++
  ["const char* ".toList ++ strerrorFunction ++ "(int32_t);".toList,
    [],
    "#endif /* ".toList ++ includeGuard ++ " */".toList]

/-- The header. -/
def declarations (t : Table) : Text := unlines t.declarationLines

theorem constantLines_of_rows {t : Table} (h : t.rows ≠ []) :
    t.constantLines = valuesNote :: t.rows.map Row.definition ++ [[]] := if_neg h

theorem constantLines_of_empty {t : Table} (h : t.rows = []) : t.constantLines = [] := if_pos h

end Table

end ErrnoBindings
