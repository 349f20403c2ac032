import ErrnoBindings.Artifact.Bindings
import ErrnoBindings.Proofs.CLiteral.Context
import Mathlib.Data.List.Basic

/-!
# The artifacts hold the table

The header says which symbol has which value, and the source says which symbol has which description. Between them
nothing of the table is lost: read line by line, the header gives the symbols with their values and the source
gives them with their descriptions, each in table order, and the two together give the table back
(`artifacts_lossless`).

What could break this is a row that steps out of its place: a symbol with a space would end early, one with a
newline would leave its line, and a description might close its literal or the statement around it. Of the symbols
it is therefore assumed that they have neither (`Table.SymbolsInline`). Of the descriptions nothing is assumed,
since `CLiteral.encode` keeps them in their place.
-/

namespace ErrnoBindings

/-- A table whose symbols have neither a space nor a newline in them, so that each of them is one word of its line. -/
def Table.SymbolsInline (t : Table) : Prop := ∀ r ∈ t.rows, ' ' ∉ r.symbol ∧ '\n' ∉ r.symbol

instance (t : Table) : Decidable t.SymbolsInline :=
  inferInstanceAs (Decidable (∀ r ∈ t.rows, ' ' ∉ r.symbol ∧ '\n' ∉ r.symbol))

/-! ## Each row stays on its lines -/

/-- A value is written with digits, a minus sign and parentheses. -/
theorem eq_of_mem_constantValue {v : Int64} {c : Char} (h : c ∈ constantValue v) :
    c.isDigit = true ∨ c = '(' ∨ c = '-' ∨ c = ')' := by
  rw [constantValue, Numeral.print] at h
  split at h
  · simp only [List.cons_append, List.mem_cons, List.mem_append, List.not_mem_nil, or_false] at h
    rcases h with rfl | rfl | hd | rfl
    · exact Or.inr (Or.inl rfl)
    · exact Or.inr (Or.inr (Or.inl rfl))
    · exact Or.inl (isDigit_of_mem_decimal hd)
    · exact Or.inr (Or.inr (Or.inr rfl))
  · exact Or.inl (isDigit_of_mem_decimal h)

theorem isLine_constantValue (v : Int64) : IsLine (constantValue v) := by
  refine ⟨fun h => ?_, fun h => ?_⟩
  · exact absurd (eq_of_mem_constantValue h) (by decide)
  · exact absurd (eq_of_mem_constantValue (List.mem_of_getLast? h)) (by decide)

theorem constantValue_ne_nil (v : Int64) : constantValue v ≠ [] := by
  rw [constantValue, Numeral.print]
  split
  · exact List.cons_ne_nil _ _
  · exact decimal_ne_nil _

theorem Row.newline_not_mem_constantName {r : Row} (h : '\n' ∉ r.symbol) : '\n' ∉ r.constantName := by
  rw [Row.constantName, List.mem_append, not_or]
  exact ⟨by decide, h⟩

/-- The definition of a constant is one line. -/
theorem Row.isLine_definition {r : Row} (h : '\n' ∉ r.symbol) : IsLine r.definition := by
  have hvalue : IsLine (' ' :: constantValue r.value) :=
    IsLine.append (s := [' ']) (by decide) (isLine_constantValue _) (constantValue_ne_nil _)
  refine IsLine.append ?_ hvalue (List.cons_ne_nil _ _)
  rw [List.mem_append, not_or]
  exact ⟨by decide, Row.newline_not_mem_constantName h⟩

/-- No newline of a description gets into its literal. -/
theorem CLiteral.newline_not_mem_encode (t : Text) : '\n' ∉ encode t := fun h =>
  absurd (isControl_of_mem_encode h) (by decide)

/-- The comparison with a constant is one line, whatever is returned. -/
theorem Row.isLine_comparison {r : Row} (h : '\n' ∉ r.symbol) : IsLine r.comparison := by
  refine IsLine.append ?_ (by decide) (by decide)
  simp only [List.mem_append, not_or]
  exact ⟨⟨⟨by decide, Row.newline_not_mem_constantName h⟩, by decide⟩, CLiteral.newline_not_mem_encode _⟩

/-- What is found in no line around some others is found in these alone. -/
theorem filterMap_around {β : Type} {f : Text → Option β} {front ls back : List Text}
    (hfront : ∀ l ∈ front, f l = none) (hback : ∀ l ∈ back, f l = none) :
    (front ++ ls ++ back).filterMap f = ls.filterMap f := by
  rw [List.filterMap_append, List.filterMap_append, List.filterMap_eq_nil_iff.mpr hfront,
    List.filterMap_eq_nil_iff.mpr hback, List.nil_append, List.append_nil]

/-- Of the lines that define the constants, one is the note above them, one is empty, and the others are the rows'. -/
theorem Table.mem_constantLines {t : Table} {l : Text} (h : l ∈ t.constantLines) :
    l = valuesNote ∨ (∃ r ∈ t.rows, l = r.definition) ∨ l = [] := by
  rw [Table.constantLines] at h
  split at h
  · cases h
  · rw [List.mem_append, List.mem_cons, List.mem_map, List.mem_singleton] at h
    rcases h with (rfl | ⟨r, hr, rfl⟩) | rfl
    · exact Or.inl rfl
    · exact Or.inr (Or.inl ⟨r, hr, rfl⟩)
    · exact Or.inr (Or.inr rfl)

/-- What is found in these lines is found in the rows' own, if it is neither in the note nor in an empty line. -/
theorem Table.filterMap_constantLines {β : Type} {f : Text → Option β} (hnote : f valuesNote = none)
    (hempty : f [] = none) (t : Table) :
    t.constantLines.filterMap f = t.rows.filterMap fun r => f r.definition := by
  by_cases h : t.rows = []
  · rw [Table.constantLines_of_empty h, h]
    rfl
  · rw [Table.constantLines_of_rows h, List.filterMap_append, List.filterMap_cons_none hnote,
      List.filterMap_cons_none hempty, List.filterMap_map]
    exact List.append_nil _

/-- The header falls into the lines that it was put together from. -/
theorem Table.lines_declarations {t : Table} (h : t.SymbolsInline) : lines t.declarations = t.declarationLines := by
  refine lines_unlines fun l hl => ?_
  rw [Table.declarationLines] at hl
  simp only [List.mem_append] at hl
  rcases hl with (hl | hl) | hl
  · revert l
    decide
  · obtain rfl | ⟨r, hr, rfl⟩ | rfl := Table.mem_constantLines hl
    · decide
    · exact Row.isLine_definition (h r hr).2
    · decide
  · revert l
    decide

/-- The source falls into the lines that it was put together from. -/
theorem Table.lines_definitions {t : Table} (h : t.SymbolsInline) : lines t.definitions = t.definitionLines := by
  refine lines_unlines fun l hl => ?_
  rw [Table.definitionLines] at hl
  simp only [List.mem_append] at hl
  rcases hl with (hl | hl) | hl
  · revert l
    decide
  · obtain ⟨r, hr, rfl⟩ := List.mem_map.mp hl
    exact Row.isLine_comparison (h r hr).2
  · revert l
    decide

/-! ## Each line is read as what it stands for -/

namespace Bindings

/-- The constants that the lines of a header define are those of the rows, in table order. -/
theorem constants_of_declarationLines {t : Table} (h : t.SymbolsInline) :
    t.declarationLines.filterMap constant? = t.rows.map fun r => (r.constantName, r.value.toInt) := by
  rw [Table.declarationLines]
  rw [filterMap_around (by decide) (by decide), Table.filterMap_constantLines (by decide) (by decide),
    List.filterMap_eq_map_iff_forall_eq_some]
  exact fun r hr => constant?_definition (h r hr).1

/-- The comparisons on the lines of a source are those of the rows, in table order. -/
theorem comparisons_of_definitionLines {t : Table} (h : t.SymbolsInline) :
    t.definitionLines.filterMap comparison? = t.rows.map fun r => (r.constantName, r.description) := by
  rw [Table.definitionLines]
  rw [filterMap_around (by decide) (by decide), List.filterMap_map, List.filterMap_eq_map_iff_forall_eq_some]
  exact fun r hr => comparison?_comparison (h r hr).1

/-- A comparison is not taken for the statement at the end. -/
theorem returned?_comparison (r : Row) : returned? (statement r.comparison) = none := by
  rw [statement_comparison]
  rfl

/-- The statement at the end of the function is the only one that returns without comparing. -/
theorem fallback_of_definitionLines (t : Table) :
    t.definitionLines.findSome? (fun line => returned? (statement line)) = some unknownError := by
  have hrows : (t.rows.map Row.comparison).findSome? (fun line => returned? (statement line)) = none := by
    rw [List.findSome?_eq_none_iff]
    intro line hline
    obtain ⟨r, -, rfl⟩ := List.mem_map.mp hline
    exact returned?_comparison r
  rw [Table.definitionLines]
  rw [List.findSome?_append, List.findSome?_append, hrows]
  decide

end Bindings

/-! ## The table comes back -/

/-- The bindings that the rows of a table call for. -/
def Table.bindings (t : Table) : Bindings :=
  ⟨t.rows.map fun r => (r.constantName, r.value.toInt), t.rows.map fun r => (r.constantName, r.description),
    unknownError⟩

theorem Table.comparisons_bindings (t : Table) :
    t.bindings.comparisons = t.rows.map fun r => (r.constantName, r.description) := rfl

/-- The two artifacts of a table make the bindings that its rows call for. -/
theorem Bindings.ofTexts?_artifacts {t : Table} (h : t.SymbolsInline) :
    ofTexts? t.declarations t.definitions = some t.bindings := by
  rw [ofTexts?]
  rw [Table.lines_declarations h, Table.lines_definitions h, fallback_of_definitionLines,
    constants_of_declarationLines h, comparisons_of_definitionLines h]
  rfl

/-- The row that a constant and a comparison stand for, if they share their name and it is the name of a constant. -/
def Row.ofBinding? (constant : Text × Int) (comparison : Text × Text) : Option Row :=
  if constant.1 = comparison.1 then
    (behind? constantPrefix constant.1).map fun symbol => ⟨symbol, Int64.ofInt constant.2, comparison.2⟩
  else none

namespace Bindings

/-- The rows that constants and comparisons stand for in pairs; none if one of them is left over. -/
def rows? : List (Text × Int) → List (Text × Text) → Option (List Row)
  | [], [] => some []
  | c :: cs, p :: ps => (Row.ofBinding? c p).bind fun r => (rows? cs ps).map (r :: ·)
  | _, _ => none

/-- The table that bindings were made from. -/
def table? (b : Bindings) : Option Table := (rows? b.constants b.comparisons).map Table.mk

theorem ofBinding?_row (r : Row) :
    Row.ofBinding? (r.constantName, r.value.toInt) (r.constantName, r.description) = some r := by
  have hsymbol : behind? constantPrefix r.constantName = some r.symbol := behind?_append _ _
  rw [Row.ofBinding?]
  rw [if_pos rfl, hsymbol, Option.map_some, Int64.ofInt_toInt]

theorem rows?_of_rows (rs : List Row) :
    rows? (rs.map fun r => (r.constantName, r.value.toInt)) (rs.map fun r => (r.constantName, r.description)) =
      some rs := by
  induction rs with
  | nil => rfl
  | cons r rs ih =>
    rw [List.map_cons, List.map_cons, rows?, ofBinding?_row, Option.bind_some, ih]
    rfl

theorem table?_bindings (t : Table) : t.bindings.table? = some t := by
  rw [table?]
  rw [show rows? t.bindings.constants t.bindings.comparisons = some t.rows from rows?_of_rows t.rows]
  rfl

end Bindings

/-- **The artifacts hold the table.** Read line by line, the header defines exactly the constants of the rows with
their values, and the source compares with exactly these constants and returns the rows' descriptions, both in table
order; and from the two texts the table is read back. -/
theorem artifacts_lossless {t : Table} (h : ∀ r ∈ t.rows, ' ' ∉ r.symbol ∧ '\n' ∉ r.symbol) :
    (lines t.declarations).filterMap Bindings.constant? =
        t.rows.map (fun r => ("HOST_".toList ++ r.symbol, r.value.toInt)) ∧
      (lines t.definitions).filterMap Bindings.comparison? =
        t.rows.map (fun r => ("HOST_".toList ++ r.symbol, r.description)) ∧
      (Bindings.ofTexts? t.declarations t.definitions).bind Bindings.table? = some t := by
  have hinline : t.SymbolsInline := h
  refine ⟨?_, ?_, ?_⟩
  · rw [Table.lines_declarations hinline]
    exact Bindings.constants_of_declarationLines hinline
  · rw [Table.lines_definitions hinline]
    exact Bindings.comparisons_of_definitionLines hinline
  · rw [Bindings.ofTexts?_artifacts hinline, Option.bind_some]
    exact Bindings.table?_bindings t

/-- Rows that do what they can to step out of their place: symbols with a parenthesis and without any character, one
symbol twice, the least of all values, and descriptions that look like the end of a statement. -/
def Table.unruly : Table :=
  ⟨[⟨"E)".toList, Int64.minValue, "x\") return \"y\";\n".toList⟩, ⟨[], 0, "??=\\".toList⟩,
    ⟨"E)".toList, 8, ['\x07', '8']⟩]⟩

theorem artifacts_lossless_unruly :
    (∀ r ∈ Table.unruly.rows, ' ' ∉ r.symbol ∧ '\n' ∉ r.symbol) ∧
      (lines Table.unruly.declarations).filterMap Bindings.constant? =
        [("HOST_E)".toList, -9223372036854775808), ("HOST_".toList, 0), ("HOST_E)".toList, 8)] ∧
      (lines Table.unruly.definitions).filterMap Bindings.comparison? =
        [("HOST_E)".toList, "x\") return \"y\";\n".toList), ("HOST_".toList, "??=\\".toList),
          ("HOST_E)".toList, ['\x07', '8'])] ∧
      (Bindings.ofTexts? Table.unruly.declarations Table.unruly.definitions).bind Bindings.table? =
        some Table.unruly := by
  have hsymbols : ∀ r ∈ Table.unruly.rows, ' ' ∉ r.symbol ∧ '\n' ∉ r.symbol := by decide
  obtain ⟨hconstants, hcomparisons, htable⟩ := artifacts_lossless hsymbols
  exact ⟨hsymbols, hconstants, hcomparisons, htable⟩

end ErrnoBindings
