import ErrnoBindings.Listing.Row
import ErrnoBindings.Text.Lines

/-!
# Listings

A listing is a text with one row on each line. It is read as a whole or not at all: the first line that is no row
is the fault of the listing, and every line counts, so an empty one is a row without a symbol.

`Table.toListing` writes a table back, one line per row, each with its newline.
-/

namespace ErrnoBindings

/-- Reads lines as rows, the first of them having the given number. The first line that is no row decides. -/
def readRows : Nat → List Text → Except Fault (List Row)
  | _, [] => .ok []
  | lineNo, line :: rest =>
    match Row.ofLine lineNo line with
    | .error f => .error f
    | .ok r =>
      match readRows (lineNo + 1) rest with
      | .error f => .error f
      | .ok rs => .ok (r :: rs)

namespace Table

/-- Reads a listing. -/
def ofListing (text : Text) : Except Fault Table :=
  match readRows 1 (lines text) with
  | .error f => .error f
  | .ok rs => .ok ⟨rs⟩

/-- Writes a table as a listing. -/
def toListing (t : Table) : Text := unlines (t.rows.map Row.toLine)

end Table

/-! ## Reading part by part -/

@[simp] theorem readRows_nil (lineNo : Nat) : readRows lineNo [] = .ok [] := rfl

theorem readRows_cons_ok {lineNo : Nat} {line : Text} {r : Row} (h : Row.ofLine lineNo line = .ok r)
    (rest : List Text) :
    readRows lineNo (line :: rest) = (readRows (lineNo + 1) rest).map (r :: ·) := by
  rw [readRows, h]
  cases readRows (lineNo + 1) rest <;> rfl

theorem readRows_cons_error {lineNo : Nat} {line : Text} {f : Fault} (h : Row.ofLine lineNo line = .error f)
    (rest : List Text) : readRows lineNo (line :: rest) = .error f := by
  rw [readRows, h]

/-- Each line of a listing that is read gives one row. -/
theorem length_of_readRows {lineNo : Nat} {ls : List Text} {rs : List Row}
    (h : readRows lineNo ls = .ok rs) : rs.length = ls.length := by
  induction ls generalizing lineNo rs with
  | nil =>
    cases h
    rfl
  | cons line rest ih =>
    cases hline : Row.ofLine lineNo line with
    | error f =>
      rw [readRows_cons_error hline] at h
      cases h
    | ok r =>
      rw [readRows_cons_ok hline] at h
      cases hrest : readRows (lineNo + 1) rest with
      | error f =>
        rw [hrest] at h
        cases h
      | ok rs' =>
        rw [hrest] at h
        cases h
        simp [ih hrest]

/-- Lines that are not read hold a line that is no row. -/
theorem readRows_eq_error {lineNo : Nat} {ls : List Text} {f : Fault} (h : readRows lineNo ls = .error f) :
    ∃ n defect line span, line ∈ ls ∧ f = .malformedRow n defect line span := by
  induction ls generalizing lineNo with
  | nil => cases h
  | cons line rest ih =>
    cases hline : Row.ofLine lineNo line with
    | error g =>
      rw [readRows_cons_error hline] at h
      cases h
      obtain ⟨defect, span, hf⟩ := Row.ofLine_eq_error hline
      exact ⟨_, _, _, _, List.mem_cons_self .., hf⟩
    | ok r =>
      rw [readRows_cons_ok hline] at h
      cases hrest : readRows (lineNo + 1) rest with
      | error g =>
        rw [hrest] at h
        cases h
        obtain ⟨n, defect, line', span, hmem, hf⟩ := ih hrest
        exact ⟨n, defect, line', span, List.mem_cons_of_mem _ hmem, hf⟩
      | ok rs =>
        rw [hrest] at h
        cases h

/-- A listing that is not read has a malformed row. -/
theorem Table.ofListing_eq_error {text : Text} {f : Fault} (h : Table.ofListing text = .error f) :
    ∃ n defect line span, line ∈ lines text ∧ f = .malformedRow n defect line span := by
  unfold Table.ofListing at h
  split at h
  · next hrows =>
    cases h
    exact readRows_eq_error hrows
  · cases h

end ErrnoBindings
