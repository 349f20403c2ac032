import ErrnoBindings.Fault.Basic
import ErrnoBindings.Table.Basic
import ErrnoBindings.Text.Words

/-!
# Rows of a listing

A line of a listing is a symbol, a value and a description, separated by blanks. The description is whatever
words are left, joined by single spaces, so that the width of the gaps between them is not kept. Everything is
decided by the line's words: what the row is, or which of the three defects the line has. Only the span of a
fault looks at where the words stand.
-/

namespace ErrnoBindings.Row

/-- Reads a line as a row. The line's number goes into the fault and nowhere else. -/
def ofLine (lineNo : Nat) (line : Text) : Except Fault Row :=
  match locateWords line with
  | [] => .error (.ofRow lineNo line .missingSymbol 0 (byteLength line))
  | [_] => .error (.ofRow lineNo line .missingValue 0 (byteLength line))
  | symbol :: numeral :: rest =>
    match Numeral.read? numeral.text with
    | none =>
      .error (.ofRow lineNo line .invalidValue numeral.offset (numeral.offset + byteLength numeral.text))
    | some value => .ok ⟨symbol.text, value, joinWords (rest.map Word.text)⟩

/-- Writes a row as a line: symbol, value and description with single spaces between them, and no space behind
the value when there is no description. -/
def toLine (r : Row) : Text :=
  r.symbol ++ ' ' :: Numeral.print r.value ++ if r.description = [] then [] else ' ' :: r.description

/-- A line that is no row gives a malformed row with that line's number and the line itself. -/
theorem ofLine_eq_error {lineNo : Nat} {line : Text} {f : Fault} (h : ofLine lineNo line = .error f) :
    ∃ defect span, f = .malformedRow lineNo defect line span := by
  unfold ofLine at h
  split at h
  · cases h
    exact ⟨_, _, rfl⟩
  · cases h
    exact ⟨_, _, rfl⟩
  · split at h
    · cases h
      exact ⟨_, _, rfl⟩
    · cases h

end ErrnoBindings.Row
