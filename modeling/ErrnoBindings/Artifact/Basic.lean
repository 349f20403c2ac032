import ErrnoBindings.Table.Basic
import ErrnoBindings.Text.Numeral
import ErrnoBindings.Text.Utf8

/-!
# The two artifacts

One table gives two files: the *declarations*, a header with a constant for each row, and the *definitions*, a C
source with the function that turns a value into its description. This module says what they are called, where
they belong, and which names they share. The names of the constants start with `HOST_`, and the include guard
does not, so that no symbol of a table can name the guard (`constantName_ne_includeGuard`).
-/

namespace ErrnoBindings

/-- A file that is generated from a table. -/
inductive Artifact where
  /-- the header -/
  | declarations
  /-- the C source -/
  | definitions
  deriving DecidableEq, Repr

namespace Artifact

/-- What the artifact is called in messages. -/
def name : Artifact → Text
  | declarations => "declarations".toList
  | definitions => "definitions".toList

/-- The name of the file. -/
def fileName : Artifact → Text
  | declarations => "errno.h".toList
  | definitions => "errno.c".toList

/-- The name under which other sources include the file. -/
def logicalName (a : Artifact) : Text := "host/".toList ++ a.fileName

/-- The directory at the top of the output tree that the file belongs to. -/
def directory : Artifact → Text
  | declarations => "inc".toList
  | definitions => "src".toList

/-- The path of the file from the output root. -/
def relativePath (a : Artifact) : Text := a.directory ++ '/' :: a.logicalName

/-- The path of the directory that the file stands in, from the output root. -/
def folder (a : Artifact) : Text := a.directory ++ "/host".toList

/-- The name under which the file is written before it is given its own. -/
def stagingName (a : Artifact) : Text := '.' :: a.fileName ++ ".tmp".toList

/-- The file stands in its folder. -/
theorem relativePath_eq (a : Artifact) : a.relativePath = a.folder ++ '/' :: a.fileName := by
  cases a <;> rfl

end Artifact

/-! ## Names in the generated text -/

/-- The macro that guards the header against being included twice. -/
def includeGuard : Text := "WAEIO_HOST_ERRNO_H".toList

/-- What the name of every constant starts with. -/
def constantPrefix : Text := "HOST_".toList

/-- The variable that the bindings declare. -/
def errnoVariable : Text := "host_errno".toList

/-- The function that the bindings declare. -/
def strerrorFunction : Text := "host_strerror".toList

/-- The comment above the constants. -/
def valuesNote : Text :=
  "/* values in decimal as listed by the host; negative values are parenthesized */".toList

/-- The name of a row's constant. -/
def Row.constantName (r : Row) : Text := constantPrefix ++ r.symbol

/-- A value as the body of a macro: a negative one stands in parentheses, so that it expands safely anywhere. -/
def constantValue (v : Int64) : Text :=
  if v.toInt < 0 then '(' :: Numeral.print v ++ [')'] else Numeral.print v

/-- The name of a constant has a space only where the row's symbol has one. -/
theorem Row.space_not_mem_constantName {r : Row} (h : ' ' ∉ r.symbol) : ' ' ∉ r.constantName := by
  rw [Row.constantName, List.mem_append, not_or]
  exact ⟨by decide, h⟩

/-- The include guard is the constant of no row. -/
theorem constantName_ne_includeGuard (r : Row) : r.constantName ≠ includeGuard := by
  intro h
  have hprefix : constantPrefix = ['H', 'O', 'S', 'T', '_'] := rfl
  have hguard : includeGuard.head? = some 'W' := rfl
  rw [← h, Row.constantName, hprefix] at hguard
  cases hguard

end ErrnoBindings
