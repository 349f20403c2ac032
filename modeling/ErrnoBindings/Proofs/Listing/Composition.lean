import ErrnoBindings.Listing.Basic

/-!
# A listing in two parts

A listing can be read in parts, if it is cut behind a newline. The lines of the whole are then the lines of the
first part and those of the second (`lines_append`), and lines are read one after the other: the first line that is
no row decides, and what stands behind it is not looked at (`readRows_append`). All that the second part learns of
the first is how many lines there were, because its own lines are numbered on from there. A number that is greater
by some lines makes a fault that is the same but for its number (`readRows_add`).

* A listing in two parts reads as the first part and then the second (`Table.ofListing_append`).
* A listing stops at a line when this line is no row and all lines before it are (`StopsAt`). The listings that are
  not read are those that stop somewhere, and their fault is that of the line (`Table.ofListing_eq_error_iff`).

Together this is what the main statement says (`Table.ofListing_compositional`).
-/

namespace ErrnoBindings

/-! ## Numbering -/

/-- The fault as it is when the line that it is about stands some lines further on. -/
def Fault.movedBy (k : Nat) : Fault → Fault
  | .malformedRow lineNo defect line span => .malformedRow (lineNo + k) defect line span
  | f => f

/-- The number of a line goes into its fault and nowhere else. -/
theorem Row.ofLine_add (lineNo k : Nat) (line : Text) :
    Row.ofLine (lineNo + k) line = (Row.ofLine lineNo line).mapError (Fault.movedBy k) := by
  unfold Row.ofLine
  split
  · rfl
  · rfl
  · split <;> rfl

/-- Lines that are numbered from further on have the same rows, and the same fault further on. -/
theorem readRows_add (lineNo k : Nat) (ls : List Text) :
    readRows (lineNo + k) ls = (readRows lineNo ls).mapError (Fault.movedBy k) := by
  induction ls generalizing lineNo with
  | nil => rfl
  | cons line rest ih =>
    have hline := Row.ofLine_add lineNo k line
    have hrest := ih (lineNo + 1)
    rw [show lineNo + 1 + k = lineNo + k + 1 by omega] at hrest
    cases hrow : Row.ofLine lineNo line with
    | error f =>
      rw [hrow] at hline
      rw [readRows_cons_error hline, readRows_cons_error hrow]
      rfl
    | ok r =>
      rw [hrow] at hline
      rw [readRows_cons_ok hline, readRows_cons_ok hrow, hrest]
      cases readRows (lineNo + 1) rest <;> rfl

/-! ## One part behind the other -/

/-- Lines are read one after the other: those that come later count only if all that come before are rows, and are
numbered on from them. -/
theorem readRows_append (lineNo : Nat) (ls ms : List Text) :
    readRows lineNo (ls ++ ms) =
      (readRows lineNo ls).bind fun rs => (readRows (lineNo + ls.length) ms).map (rs ++ ·) := by
  induction ls generalizing lineNo with
  | nil =>
    simp only [List.nil_append, List.length_nil, Nat.add_zero, readRows_nil, Except.bind]
    cases readRows lineNo ms <;> rfl
  | cons line rest ih =>
    have hrest := ih (lineNo + 1)
    rw [show lineNo + 1 + rest.length = lineNo + (line :: rest).length by simp; omega] at hrest
    cases hrow : Row.ofLine lineNo line with
    | error f =>
      rw [List.cons_append, readRows_cons_error hrow, readRows_cons_error hrow]
      rfl
    | ok r =>
      rw [List.cons_append, readRows_cons_ok hrow, readRows_cons_ok hrow, hrest]
      cases readRows (lineNo + 1) rest with
      | error f => rfl
      | ok rs => cases readRows (lineNo + (line :: rest).length) ms <;> rfl

namespace Table

/-- A listing gives the table of the rows of its lines, numbered from one. -/
theorem ofListing_eq (text : Text) : ofListing text = (readRows 1 (lines text)).map Table.mk := by
  unfold ofListing
  split
  · next h => rw [h]; rfl
  · next h => rw [h]; rfl

/-- A listing behind another one, whose last line has its newline: the first part is read, then the second, the
fault of which is moved by the lines of the first. -/
theorem ofListing_append {a : Text} (ha : Terminated a) (b : Text) :
    ofListing (a ++ b) =
      (ofListing a).bind fun A =>
        ((ofListing b).mapError (Fault.movedBy (a.count '\n'))).map fun B => ⟨A.rows ++ B.rows⟩ := by
  have hcount : (lines a).length = a.count '\n' := by rw [length_lines, if_pos ha, Nat.add_zero]
  rw [ofListing_eq, ofListing_eq, ofListing_eq, lines_append ha, readRows_append, hcount, readRows_add]
  cases readRows 1 (lines a) with
  | error f => rfl
  | ok rs => cases readRows 1 (lines b) <;> rfl

end Table

/-! ## Where a listing stops -/

/-- Lines are read up to the one at an index: it is no row and has the fault, and all lines before it are rows. The
line at index `i` has the number `i + 1`, which the fault shows together with the line. -/
def StopsAt (ls : List Text) (i : Nat) (f : Fault) : Prop :=
  ∃ line, ls[i]? = some line ∧ Row.ofLine (i + 1) line = .error f ∧
    (∃ defect span, f = .malformedRow (i + 1) defect line span) ∧
    ∀ j, j < i → ∀ l, ls[j]? = some l → ∃ r, Row.ofLine (j + 1) l = .ok r

/-- Lines with numbers from anywhere are not read when one of them is no row and all before it are, and then the
fault is that line's. -/
theorem readRows_eq_error_iff {lineNo : Nat} {ls : List Text} {f : Fault} :
    readRows lineNo ls = .error f ↔
      ∃ i line, ls[i]? = some line ∧ Row.ofLine (lineNo + i) line = .error f ∧
        ∀ j, j < i → ∀ l, ls[j]? = some l → ∃ r, Row.ofLine (lineNo + j) l = .ok r := by
  induction ls generalizing lineNo with
  | nil => simp
  | cons line rest ih =>
    cases hrow : Row.ofLine lineNo line with
    | error g =>
      rw [readRows_cons_error hrow]
      constructor
      · intro h
        cases h
        exact ⟨0, line, rfl, hrow, fun j hj => absurd hj (Nat.not_lt_zero j)⟩
      · rintro ⟨i, l, hl, hf, hbefore⟩
        cases i with
        | zero =>
          cases hl
          rw [Nat.add_zero, hrow] at hf
          cases hf
          rfl
        | succ i =>
          obtain ⟨r, hr⟩ := hbefore 0 (Nat.succ_pos i) line rfl
          rw [Nat.add_zero, hrow] at hr
          cases hr
    | ok r =>
      rw [readRows_cons_ok hrow]
      have hmap : (readRows (lineNo + 1) rest).map (r :: ·) = .error f ↔ readRows (lineNo + 1) rest = .error f := by
        cases readRows (lineNo + 1) rest <;> simp [Except.map]
      rw [hmap, ih]
      -- the first line is a row, so every index below moves up by one
      constructor
      · rintro ⟨i, l, hl, hf, hbefore⟩
        refine ⟨i + 1, l, hl, ?_, ?_⟩
        · rw [show lineNo + (i + 1) = lineNo + 1 + i by omega]
          exact hf
        · intro j hj m hm
          cases j with
          | zero =>
            cases hm
            exact ⟨r, hrow⟩
          | succ j =>
            rw [show lineNo + (j + 1) = lineNo + 1 + j by omega]
            exact hbefore j (by omega) m hm
      · rintro ⟨i, l, hl, hf, hbefore⟩
        cases i with
        | zero =>
          cases hl
          rw [Nat.add_zero, hrow] at hf
          cases hf
        | succ i =>
          refine ⟨i, l, hl, ?_, ?_⟩
          · rw [show lineNo + 1 + i = lineNo + (i + 1) by omega]
            exact hf
          · intro j hj m hm
            rw [show lineNo + 1 + j = lineNo + (j + 1) by omega]
            exact hbefore (j + 1) (by omega) m hm

namespace Table

/-- A listing is not read when it stops at one of its lines. -/
theorem ofListing_eq_error_iff {text : Text} {f : Fault} :
    ofListing text = .error f ↔ ∃ i, StopsAt (lines text) i f := by
  have hmap : ofListing text = .error f ↔ readRows 1 (lines text) = .error f := by
    rw [ofListing_eq]
    cases readRows 1 (lines text) <;> simp [Except.map]
  rw [hmap, readRows_eq_error_iff]
  constructor
  · rintro ⟨i, line, hline, hf, hbefore⟩
    rw [Nat.add_comm] at hf
    refine ⟨i, line, hline, hf, Row.ofLine_eq_error hf, fun j hj l hl => ?_⟩
    rw [Nat.add_comm]
    exact hbefore j hj l hl
  · rintro ⟨i, line, hline, hf, -, hbefore⟩
    rw [Nat.add_comm] at hf
    refine ⟨i, line, hline, hf, fun j hj l hl => ?_⟩
    rw [Nat.add_comm]
    exact hbefore j hj l hl

/-- A listing that is read has a row for each line. -/
theorem size_of_ofListing {text : Text} {t : Table} (h : ofListing text = .ok t) : t.size = (lines text).length := by
  rw [ofListing_eq] at h
  cases hrows : readRows 1 (lines text) with
  | error f =>
    rw [hrows] at h
    cases h
  | ok rs =>
    rw [hrows] at h
    cases h
    exact length_of_readRows hrows

/-- **Listings are read part by part, and the first line that is no row decides.** Behind a part whose last line has
its newline, a second part adds its rows to those of the first; a fault in the first part stands whatever follows;
and a fault in the second part stands with its number moved by the lines of the first. A listing that is read has a
row for each of its lines, and one that is not read stops at its first line that is no row. -/
theorem ofListing_compositional {a : Text} (ha : Terminated a) (b : Text) :
    (∀ A B, ofListing a = .ok A → ofListing b = .ok B → ofListing (a ++ b) = .ok ⟨A.rows ++ B.rows⟩) ∧
    (∀ f, ofListing a = .error f → ofListing (a ++ b) = .error f) ∧
    (∀ A lineNo defect line span, ofListing a = .ok A →
      ofListing b = .error (.malformedRow lineNo defect line span) →
      ofListing (a ++ b) = .error (.malformedRow (lineNo + a.count '\n') defect line span)) ∧
    (∀ text t, ofListing text = .ok t →
      t.size = (lines text).length ∧ t.size = text.count '\n' + if Terminated text then 0 else 1) ∧
    (∀ text f, ofListing text = .error f ↔ ∃ i, StopsAt (lines text) i f) := by
  refine ⟨?_, ?_, ?_, ?_, fun text f => ofListing_eq_error_iff⟩
  · intro A B hA hB
    rw [ofListing_append ha, hA, hB]
    rfl
  · intro f hf
    rw [ofListing_append ha, hf]
    rfl
  · intro A lineNo defect line span hA hB
    rw [ofListing_append ha, hA, hB]
    rfl
  · intro text t h
    have hsize := size_of_ofListing h
    exact ⟨hsize, hsize.trans (length_lines text)⟩

/-- A listing of two lines, one of which ends in a carriage return and a newline. -/
def firstPart : Text := "EPERM 1 Not permitted\r\nEIO 5\n".toList

/-- A listing whose second line is empty and whose last line has no newline. -/
def secondPart : Text := "ENOENT 2\n\nEFOO".toList

theorem ofListing_compositional_parts :
    Terminated firstPart ∧
      ofListing firstPart = .ok ⟨[⟨"EPERM".toList, 1, "Not permitted".toList⟩, ⟨"EIO".toList, 5, []⟩]⟩ ∧
      ofListing secondPart = .error (.malformedRow 2 .missingSymbol [] ⟨0, 0⟩) ∧
      ofListing (firstPart ++ secondPart) = .error (.malformedRow 4 .missingSymbol [] ⟨0, 0⟩) := by
  have hfirst : Terminated firstPart := by decide
  obtain ⟨-, -, hmoved, -⟩ := ofListing_compositional hfirst secondPart
  exact ⟨hfirst, rfl, rfl, hmoved _ _ _ _ _ rfl rfl⟩

end Table

end ErrnoBindings
