import ErrnoBindings.Text.Basic

/-!
# Error tables

A host lists its error codes as rows: a symbol such as `EPERM`, a value, a description. The table keeps the rows
in the order in which the host listed them, and keeps all of them. Hosts do list one value under two symbols
(`EAGAIN` and `EWOULDBLOCK`), and nothing stops a listing from naming a symbol twice.

So a value may belong to several rows, and a lookup has to choose. It takes the first (`lookup_eq_some_iff`). The
generated function takes the same one where rows that share a symbol share their value
(`strerror_bindings_of_agree`). Where a symbol comes again with another value it may not: its constant then has the
last one.
-/

namespace ErrnoBindings

/-- One error code as the host lists it. -/
structure Row where
  /-- the symbol, without any prefix -/
  symbol : Text
  /-- the value that the host gives it -/
  value : Int64
  /-- the description; empty when the host gives none -/
  description : Text
  deriving DecidableEq, Repr

/-- The error codes of a host, in listing order, with no row dropped or merged. -/
structure Table where
  /-- the rows -/
  rows : List Row
  deriving DecidableEq, Repr

/-- The description of a value that no row has. -/
def unknownError : Text := "UNKNOWN ERROR".toList

namespace Table

/-- The number of rows. -/
def size (t : Table) : Nat := t.rows.length

/-- Whether the table has no row. -/
def isEmpty (t : Table) : Bool := t.rows.isEmpty

/-- The row at a place, counted from zero. -/
def get? (t : Table) (i : Nat) : Option Row := t.rows[i]?

/-- The first row with a value. -/
def lookup (t : Table) (value : Int64) : Option Row := t.rows.find? fun r => r.value == value

/-- The description of the first row with a value, or `unknownError`. -/
def strerror (t : Table) (value : Int64) : Text :=
  match t.lookup value with
  | some r => r.description
  | none => unknownError

/-- A lookup finds a row exactly when that row has the value and no row before it does. -/
theorem lookup_eq_some_iff {t : Table} {value : Int64} {r : Row} :
    t.lookup value = some r ↔
      r.value = value ∧ ∃ before after, t.rows = before ++ r :: after ∧ ∀ q ∈ before, q.value ≠ value := by
  simp [lookup, List.find?_eq_some_iff_append]

/-- A lookup finds nothing exactly when no row has the value. -/
theorem lookup_eq_none_iff {t : Table} {value : Int64} :
    t.lookup value = none ↔ ∀ r ∈ t.rows, r.value ≠ value := by
  simp [lookup]

end Table

end ErrnoBindings
