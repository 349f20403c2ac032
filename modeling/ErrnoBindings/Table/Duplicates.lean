import ErrnoBindings.Table.Basic

/-!
# Repeated symbols

A symbol on more than one row is legal and suspicious: the generated header defines it more than once. The table
therefore reports its repeated symbols, each once, with the number of its rows, in the order in which they are
first seen.

The report is made from a *tally*: symbols with their counts, in order of first appearance, to which one symbol
after the other is added. What a tally holds for a symbol is said by `Tally.countOf`, and `Tally.countOf_add`
says what adding does to it.
-/

namespace ErrnoBindings

/-- Symbols with their counts, in order of first appearance. -/
abbrev Tally := List (Text × Nat)

namespace Tally

/-- Counts one more appearance of a symbol; a symbol not seen before goes to the end. -/
def add (s : Text) : Tally → Tally
  | [] => [(s, 1)]
  | (q, n) :: rest => if q = s then (q, n + 1) :: rest else (q, n) :: add s rest

/-- The tally of a list of symbols. -/
def ofSymbols (ss : List Text) : Tally := ss.foldl (fun tally s => tally.add s) []

/-- The count that a tally holds for a symbol; zero if it has not been seen. -/
def countOf (s : Text) : Tally → Nat
  | [] => 0
  | (q, n) :: rest => if q = s then n else countOf s rest

/-- Adding a symbol raises its own count by one and no other. -/
theorem countOf_add (tally : Tally) (s q : Text) :
    countOf q (tally.add s) = countOf q tally + if q = s then 1 else 0 := by
  induction tally with
  | nil =>
    by_cases h : q = s
    · simp [add, countOf, h]
    · simp [add, countOf, h, Ne.symm h]
  | cons p rest ih =>
    obtain ⟨r, n⟩ := p
    by_cases hr : r = s
    · by_cases hq : q = s
      · simp [add, countOf, hr, hq]
      · have hsq : ¬ s = q := fun h => hq h.symm
        simp [add, countOf, hr, hq, hsq]
    · by_cases hq : r = q
      · have hqs : ¬ q = s := fun h => hr (hq.trans h)
        simp [add, countOf, hq, hqs]
      · simp [add, countOf, hr, hq, ih]

/-- Adding a symbol keeps the symbols seen so far in their order. -/
theorem map_fst_add (tally : Tally) (s : Text) :
    (tally.add s).map Prod.fst =
      if s ∈ tally.map Prod.fst then tally.map Prod.fst else tally.map Prod.fst ++ [s] := by
  induction tally with
  | nil => simp [add]
  | cons p rest ih =>
    obtain ⟨r, n⟩ := p
    by_cases hr : r = s
    · simp [add, hr]
    · have hsr : ¬ s = r := fun h => hr h.symm
      simp only [add, if_neg hr, List.map_cons, ih, List.mem_cons, hsr, false_or]
      split <;> simp

end Tally

/-- The symbols that stand on more than one row, with the number of their rows, in order of first appearance. -/
def Table.duplicates (t : Table) : List (Text × Nat) :=
  (Tally.ofSymbols (t.rows.map Row.symbol)).filter fun p => decide (1 < p.2)

end ErrnoBindings
