import ErrnoBindings.Listing.Basic

/-!
# Canonical tables

Not every table can stand in a listing: a symbol with a blank in it would fall apart, and of the gaps between the
words of a description nothing is kept. The tables that can are the *canonical* ones. Their symbols are words, and
their descriptions are words with single spaces between them, or empty.

A listing that is read gives a canonical table (`Table.canonical_ofListing`).
-/

namespace ErrnoBindings

/-- A row that can stand in a listing: the symbol is a word, and the description is made of words. -/
def Row.Canonical (r : Row) : Prop :=
  IsWord r.symbol ∧ ∃ ws, (∀ w ∈ ws, IsWord w) ∧ r.description = joinWords ws

/-- A table that can stand in a listing. -/
def Table.Canonical (t : Table) : Prop := ∀ r ∈ t.rows, r.Canonical

/-- A line that is read gives a canonical row. -/
theorem Row.canonical_ofLine {lineNo : Nat} {line : Text} {r : Row} (h : Row.ofLine lineNo line = .ok r) :
    r.Canonical := by
  have hwords : ∀ w ∈ locateWords line, IsWord w.text := fun w hw => Cursor.isWord_of_mem_collect hw
  unfold Row.ofLine at h
  split at h
  · cases h
  · cases h
  · next symbol numeral rest heq =>
    split at h
    · cases h
    · cases h
      rw [heq] at hwords
      refine ⟨hwords _ (List.mem_cons_self ..), rest.map Word.text, ?_, rfl⟩
      intro w hw
      obtain ⟨v, hv, rfl⟩ := List.mem_map.mp hw
      exact hwords v (List.mem_cons_of_mem _ (List.mem_cons_of_mem _ hv))

/-- Lines that are read give canonical rows. -/
theorem canonical_of_readRows {lineNo : Nat} {ls : List Text} {rs : List Row} (h : readRows lineNo ls = .ok rs) :
    ∀ r ∈ rs, r.Canonical := by
  induction ls generalizing lineNo rs with
  | nil =>
    cases h
    exact fun _ hr => absurd hr List.not_mem_nil
  | cons line rest ih =>
    cases hline : Row.ofLine lineNo line with
    | error f =>
      rw [readRows_cons_error hline] at h
      cases h
    | ok q =>
      rw [readRows_cons_ok hline] at h
      cases hrest : readRows (lineNo + 1) rest with
      | error f =>
        rw [hrest] at h
        cases h
      | ok qs =>
        rw [hrest] at h
        cases h
        intro r hr
        rcases List.mem_cons.mp hr with rfl | hr
        · exact Row.canonical_ofLine hline
        · exact ih hrest r hr

/-- A listing that is read gives a canonical table. -/
theorem Table.canonical_ofListing {text : Text} {t : Table} (h : Table.ofListing text = .ok t) : t.Canonical := by
  unfold Table.ofListing at h
  split at h
  · cases h
  · next hrows =>
    cases h
    exact canonical_of_readRows hrows

end ErrnoBindings
