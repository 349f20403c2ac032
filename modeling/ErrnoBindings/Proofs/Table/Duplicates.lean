import ErrnoBindings.Proofs.Artifact.RoundTrip
import ErrnoBindings.Table.Duplicates

/-!
# Repeated symbols and the lines that they make

A tally is made by adding one symbol after the other. What it holds at any moment is settled by the symbols that were
added: it knows each of them once, with the number of times it was added, in the order in which they came first. This
is an invariant of adding (`Tally.Counts.add`), and so it holds of the tally that a whole table makes
(`Tally.counts_ofSymbols`). The repeated symbols of a table are those of the tally with a count above one.

The same numbers can be read off the two artifacts. A row makes one line of each, and this line shows the row's symbol
with a space behind it, or with a parenthesis and a space. As long as symbols have no spaces of their own, that is
enough to tell a symbol from any longer one that it begins (`Row.isSome_definitionOf`, `Row.isSome_comparisonOf`),
and so lines can be counted instead of rows.
-/

namespace ErrnoBindings

namespace Tally

/-! ## What a tally knows -/

/-- A tally is that of some symbols, which were added in this order. -/
structure Counts (tally : Tally) (seen : List Text) : Prop where
  /-- it holds for each symbol the number of times it was added -/
  count : ∀ q, countOf q tally = seen.count q
  /-- it knows the symbols that were added -/
  known : ∀ q, q ∈ tally.map Prod.fst ↔ q ∈ seen
  /-- and has them in the order in which they came first -/
  ordered : (tally.map Prod.fst).Pairwise fun p q => seen.idxOf p < seen.idxOf q

theorem counts_nil : Counts [] [] := ⟨fun _ => rfl, fun _ => Iff.rfl, List.Pairwise.nil⟩

/-- Adding a symbol to the tally of some symbols gives the tally of these symbols and that one. -/
theorem Counts.add {tally : Tally} {seen : List Text} (h : Counts tally seen) (s : Text) :
    Counts (tally.add s) (seen ++ [s]) := by
  have hkept : (tally.map Prod.fst).Pairwise fun p q => (seen ++ [s]).idxOf p < (seen ++ [s]).idxOf q := by
    refine h.ordered.imp_of_mem fun {p q} hp hq hlt => ?_
    rw [List.idxOf_append_of_mem ((h.known p).mp hp), List.idxOf_append_of_mem ((h.known q).mp hq)]
    exact hlt
  refine ⟨fun q => ?_, fun q => ?_, ?_⟩
  · rw [countOf_add, h.count, List.count_append, List.count_singleton]
    by_cases hq : q = s
    · simp [hq]
    · simp [hq, Ne.symm hq]
  · rw [map_fst_add]
    by_cases hs : s ∈ tally.map Prod.fst
    · have hseen : s ∈ seen := (h.known s).mp hs
      rw [if_pos hs, h.known, List.mem_append, List.mem_singleton]
      constructor
      · exact Or.inl
      · rintro (hq | rfl)
        · exact hq
        · exact hseen
    · rw [if_neg hs, List.mem_append, List.mem_append, h.known]
  · rw [map_fst_add]
    by_cases hs : s ∈ tally.map Prod.fst
    · rw [if_pos hs]
      exact hkept
    · have hnew : s ∉ seen := fun hmem => hs ((h.known s).mpr hmem)
      rw [if_neg hs, List.pairwise_append]
      refine ⟨hkept, List.pairwise_singleton _ _, fun p hp q hq => ?_⟩
      -- the new symbol comes behind all that were seen before
      obtain rfl := List.mem_singleton.mp hq
      have hpseen : p ∈ seen := (h.known p).mp hp
      rw [List.idxOf_append_of_mem hpseen, List.idxOf_append_of_notMem hnew]
      exact Nat.lt_add_right _ (List.idxOf_lt_length_of_mem hpseen)

/-- So does adding several, one after the other. -/
theorem Counts.addAll {tally : Tally} {seen : List Text} (h : Counts tally seen) (ss : List Text) :
    Counts (ss.foldl (fun tally s => tally.add s) tally) (seen ++ ss) := by
  induction ss generalizing tally seen with
  | nil =>
    rw [List.append_nil]
    exact h
  | cons s ss ih =>
    have hrest := ih (h.add s)
    rw [List.append_assoc] at hrest
    exact hrest

theorem counts_ofSymbols (ss : List Text) : Counts (ofSymbols ss) ss := counts_nil.addAll ss

/-- No symbol is known twice. -/
theorem Counts.nodup {tally : Tally} {seen : List Text} (h : Counts tally seen) : (tally.map Prod.fst).Nodup :=
  h.ordered.imp fun hlt heq => by
    rw [heq] at hlt
    exact Nat.lt_irrefl _ hlt

/-- In a tally that knows no symbol twice, the count that stands with a symbol is the one it holds for it. -/
theorem countOf_of_mem {tally : Tally} (h : (tally.map Prod.fst).Nodup) {s : Text} {n : Nat} (hmem : (s, n) ∈ tally) :
    countOf s tally = n := by
  induction tally with
  | nil => cases hmem
  | cons p rest ih =>
    obtain ⟨q, m⟩ := p
    obtain ⟨hq, hrest⟩ := List.nodup_cons.mp h
    rcases List.mem_cons.mp hmem with heq | hmem
    · cases heq
      simp [countOf]
    · have hne : q ≠ s := by
        rintro rfl
        exact hq (List.mem_map.mpr ⟨_, hmem, rfl⟩)
      rw [countOf, if_neg hne]
      exact ih hrest hmem

/-- The tally of some symbols has exactly these symbols, each with the number of times it is among them. -/
theorem Counts.mem_iff {tally : Tally} {seen : List Text} (h : Counts tally seen) {s : Text} {n : Nat} :
    (s, n) ∈ tally ↔ s ∈ seen ∧ seen.count s = n := by
  constructor
  · intro hmem
    refine ⟨(h.known s).mp (List.mem_map.mpr ⟨_, hmem, rfl⟩), ?_⟩
    rw [← h.count]
    exact countOf_of_mem h.nodup hmem
  · rintro ⟨hs, rfl⟩
    obtain ⟨⟨q, m⟩, hmem, rfl⟩ := List.mem_map.mp ((h.known s).mpr hs)
    have hm := countOf_of_mem h.nodup hmem
    rw [h.count] at hm
    rw [hm]
    exact hmem

end Tally

namespace Table

/-- The symbols of a table, row by row. -/
def symbols (t : Table) : List Text := t.rows.map Row.symbol

/-- A symbol is as often among the symbols as there are rows that carry it. -/
theorem count_symbols (t : Table) (s : Text) : t.symbols.count s = t.rows.countP (·.symbol = s) := by
  rw [symbols, List.count, List.countP_map]
  refine List.countP_congr fun r _ => ?_
  simp

theorem counts_symbols (t : Table) : Tally.Counts (Tally.ofSymbols t.symbols) t.symbols :=
  Tally.counts_ofSymbols t.symbols

theorem mem_duplicates_iff {t : Table} {s : Text} {n : Nat} :
    (s, n) ∈ t.duplicates ↔ t.rows.countP (·.symbol = s) = n ∧ 1 < n := by
  have hmem := (counts_symbols t).mem_iff (s := s) (n := n)
  rw [duplicates, List.mem_filter, decide_eq_true_iff, ← count_symbols]
  rw [show Tally.ofSymbols (t.rows.map Row.symbol) = Tally.ofSymbols t.symbols from rfl, hmem]
  constructor
  · rintro ⟨⟨-, hn⟩, hlt⟩
    exact ⟨hn, hlt⟩
  · rintro ⟨hn, hlt⟩
    refine ⟨⟨List.count_pos_iff.mp ?_, hn⟩, hlt⟩
    omega

/-- A repeated symbol is carried by some row. -/
theorem exists_row_of_mem_duplicates {t : Table} {s : Text} {n : Nat} (h : (s, n) ∈ t.duplicates) :
    ∃ r ∈ t.rows, r.symbol = s := by
  obtain ⟨hcount, hlt⟩ := mem_duplicates_iff.mp h
  obtain ⟨r, hr, hs⟩ := List.countP_pos_iff.mp (show 0 < t.rows.countP (·.symbol = s) by omega)
  exact ⟨r, hr, of_decide_eq_true hs⟩

/-- The repeated symbols stand in the order in which they come first in the table. -/
theorem ordered_duplicates (t : Table) :
    t.duplicates.Pairwise fun p q => t.symbols.idxOf p.1 < t.symbols.idxOf q.1 :=
  (List.pairwise_map.mp (counts_symbols t).ordered).sublist List.filter_sublist

theorem nodup_duplicates (t : Table) : (t.duplicates.map Prod.fst).Nodup :=
  (counts_symbols t).nodup.sublist (List.filter_sublist.map Prod.fst)

/-- No symbol is repeated when the symbols of the rows are distinct. -/
theorem nodup_symbols_iff {t : Table} : t.symbols.Nodup ↔ t.duplicates = [] := by
  rw [List.nodup_iff_count, List.eq_nil_iff_forall_not_mem]
  constructor
  · rintro h ⟨s, n⟩ hmem
    obtain ⟨rfl, hlt⟩ := mem_duplicates_iff.mp hmem
    have hle := h s
    rw [count_symbols] at hle
    omega
  · intro h s
    by_contra hgt
    refine h (s, t.symbols.count s) (mem_duplicates_iff.mpr ⟨(count_symbols t s).symm, ?_⟩)
    omega

end Table

/-! ## Counting lines -/

/-- Two texts that go on with a space behind a piece without any have the same piece. -/
theorem eq_of_append_space {p q x y : Text} (hp : ' ' ∉ p) (hq : ' ' ∉ q) (h : p ++ ' ' :: x = q ++ ' ' :: y) :
    p = q := by
  have hcut := congrArg cutAtSpace h
  rw [cutAtSpace_append hp, cutAtSpace_append hq] at hcut
  exact congrArg Prod.fst hcut

/-- Lines that do not begin in some way do not begin in any way that goes on from there. -/
theorem behind?_append_eq_none {p : Text} {ls : List Text} (h : ∀ l ∈ ls, behind? p l = none) (q : Text) :
    ∀ l ∈ ls, behind? (p ++ q) l = none := by
  intro l hl
  cases hbehind : behind? (p ++ q) l with
  | none => rfl
  | some rest =>
    rw [behind?_eq_some_iff, List.append_assoc, ← behind?_eq_some_iff, h l hl] at hbehind
    cases hbehind

/-- The lines that begin with a text are those behind whose beginning something can be read. -/
theorem countP_beginning (p : Text) (ls : List Text) : ls.countP (p <+: ·) = (ls.filterMap (behind? p)).length := by
  rw [List.length_filterMap_eq_countP]
  refine List.countP_congr fun l _ => ?_
  rw [decide_eq_true_iff, Option.isSome_iff_exists]
  constructor
  · rintro ⟨rest, rfl⟩
    exact ⟨rest, behind?_append p rest⟩
  · rintro ⟨rest, h⟩
    exact ⟨rest, (behind?_eq_some_iff.mp h).symm⟩

/-- A piece without a space, which a keyword comes before and a space behind, is told from any other one. -/
theorem isSome_behind?_iff {keyword p q x y : Text} (hp : ' ' ∉ p) (hq : ' ' ∉ q) :
    (behind? (keyword ++ (p ++ ' ' :: x)) (keyword ++ (q ++ ' ' :: (x ++ y)))).isSome = true ↔ q = p := by
  rw [Option.isSome_iff_exists]
  constructor
  · rintro ⟨rest, h⟩
    rw [behind?_eq_some_iff, List.append_assoc, List.append_assoc] at h
    exact eq_of_append_space hq hp (List.append_cancel_left h)
  · rintro rfl
    refine ⟨y, behind?_eq_some_iff.mpr ?_⟩
    simp

namespace Row

/-- What the definition of a symbol's constant begins with. -/
def definitionOf (symbol : Text) : Text := "#define HOST_".toList ++ symbol ++ [' ']

/-- What the comparison with a symbol's constant begins with, the indentation left aside. -/
def comparisonOf (symbol : Text) : Text := "if (e == HOST_".toList ++ symbol ++ ") return \"".toList

/-- A row's definition is that of its own symbol's constant and of no other's. -/
theorem isSome_definitionOf {r : Row} {s : Text} (hr : ' ' ∉ r.symbol) (hs : ' ' ∉ s) :
    (behind? (definitionOf s) r.definition).isSome = true ↔ r.symbol = s := by
  have hkeyword : "#define HOST_".toList = "#define ".toList ++ constantPrefix := rfl
  have hline : r.definition = "#define HOST_".toList ++ (r.symbol ++ ' ' :: ([] ++ constantValue r.value)) := by
    rw [hkeyword]
    unfold definition constantName
    generalize "#define ".toList = keyword
    simp
  have hpart : definitionOf s = "#define HOST_".toList ++ (s ++ ' ' :: []) := List.append_assoc ..
  rw [hline, hpart]
  exact isSome_behind?_iff hs hr

/-- A row's comparison is that with its own symbol's constant and with no other's. -/
theorem isSome_comparisonOf {r : Row} {s : Text} (hr : ' ' ∉ r.symbol) (hs : ' ' ∉ s) :
    (behind? (comparisonOf s) (Bindings.statement r.comparison)).isSome = true ↔ r.symbol = s := by
  have hkeyword : "if (e == HOST_".toList = "if (e == ".toList ++ constantPrefix := rfl
  have hreturn : ") return \"".toList = ')' :: ' ' :: "return \"".toList := rfl
  have hline : Bindings.statement r.comparison = "if (e == HOST_".toList ++
      ((r.symbol ++ [')']) ++ ' ' :: ("return \"".toList ++ (CLiteral.body r.description ++ ['"', ';']))) := by
    rw [Bindings.statement_comparison, hkeyword, hreturn, constantName]
    generalize "if (e == ".toList = keyword
    generalize "return \"".toList = result
    simp
  have hpart : comparisonOf s = "if (e == HOST_".toList ++ ((s ++ [')']) ++ ' ' :: "return \"".toList) := by
    unfold comparisonOf
    generalize "if (e == HOST_".toList = keyword
    rw [hreturn, List.append_assoc, List.append_assoc]
    rfl
  have hparenthesis : ∀ {p : Text}, ' ' ∉ p → ' ' ∉ p ++ [')'] := by
    intro p hp
    rw [List.mem_append, not_or]
    exact ⟨hp, by decide⟩
  rw [hline, hpart, isSome_behind?_iff (hparenthesis hs) (hparenthesis hr)]
  exact List.append_left_inj [')']

end Row

namespace Table

/-- There are as many definitions of a symbol's constant in the header as rows that carry the symbol. -/
theorem countP_declarations {t : Table} (h : t.SymbolsInline) {s : Text} (hs : ' ' ∉ s) :
    (lines t.declarations).countP (Row.definitionOf s <+: ·) = t.rows.countP (·.symbol = s) := by
  have hother : ∀ ls : List Text, (∀ l ∈ ls, behind? "#define HOST_".toList l = none) →
      ∀ l ∈ ls, behind? (Row.definitionOf s) l = none := by
    intro ls hls
    unfold Row.definitionOf
    rw [List.append_assoc]
    exact behind?_append_eq_none hls _
  have hnote : ∀ l ∈ [valuesNote, []], behind? (Row.definitionOf s) l = none := hother _ (by decide)
  have hrows : t.declarationLines.filterMap (behind? (Row.definitionOf s)) =
      t.rows.filterMap fun r => behind? (Row.definitionOf s) r.definition := by
    rw [declarationLines]
    rw [filterMap_around (hother _ (by decide)) (hother _ (by decide)),
      filterMap_constantLines (hnote _ (by simp)) (hnote _ (by simp))]
  rw [countP_beginning, lines_declarations h, hrows, List.length_filterMap_eq_countP]
  refine List.countP_congr fun r hr => ?_
  rw [decide_eq_true_iff]
  exact Row.isSome_definitionOf (h r hr).1 hs

/-- There are as many comparisons with a symbol's constant in the source. -/
theorem countP_definitions {t : Table} (h : t.SymbolsInline) {s : Text} (hs : ' ' ∉ s) :
    ((lines t.definitions).map Bindings.statement).countP (Row.comparisonOf s <+: ·) =
      t.rows.countP (·.symbol = s) := by
  have hother : ∀ ls : List Text, (∀ l ∈ ls, behind? "if (e == HOST_".toList l = none) →
      ∀ l ∈ ls, behind? (Row.comparisonOf s) l = none := by
    intro ls hls
    unfold Row.comparisonOf
    rw [List.append_assoc]
    exact behind?_append_eq_none hls _
  have hrows : (t.definitionLines.map Bindings.statement).filterMap (behind? (Row.comparisonOf s)) =
      t.rows.filterMap fun r => behind? (Row.comparisonOf s) (Bindings.statement r.comparison) := by
    rw [definitionLines]
    rw [List.map_append, List.map_append, filterMap_around (hother _ (by decide)) (hother _ (by decide)),
      List.map_map, List.filterMap_map]
    rfl
  rw [countP_beginning, lines_definitions h, hrows, List.length_filterMap_eq_countP]
  refine List.countP_congr fun r hr => ?_
  rw [decide_eq_true_iff]
  exact Row.isSome_comparisonOf (h r hr).1 hs

end Table

/-- What it takes for a list to report the repeated symbols of a table. -/
structure Table.Reports (t : Table) (report : List (Text × Nat)) : Prop where
  /-- it has a symbol and a number exactly when that many rows carry the symbol, and more than one does -/
  counted : ∀ s n, (s, n) ∈ report ↔ t.rows.countP (·.symbol = s) = n ∧ 1 < n
  /-- it has no symbol twice -/
  once : (report.map Prod.fst).Nodup
  /-- the symbols stand in the order in which they come first in the table -/
  ordered : report.Pairwise fun p q => t.symbols.idxOf p.1 < t.symbols.idxOf q.1
  /-- it is empty exactly when the symbols of the rows are distinct -/
  distinct : t.symbols.Nodup ↔ report = []
  /-- where symbols stay on their lines, each number is that of the symbol's definitions in the header -/
  definitions : t.SymbolsInline → ∀ s n, (s, n) ∈ report →
    (lines t.declarations).countP ("#define HOST_".toList ++ s ++ [' '] <+: ·) = n
  /-- and that of the comparisons with it in the source -/
  comparisons : t.SymbolsInline → ∀ s n, (s, n) ∈ report →
    ((lines t.definitions).map Bindings.statement).countP ("if (e == HOST_".toList ++ s ++ ") return \"".toList <+: ·) =
      n

/-- A symbol that is reported has no space if no symbol has. -/
theorem Table.space_not_mem_of_duplicates {t : Table} (h : t.SymbolsInline) {s : Text} {n : Nat}
    (hmem : (s, n) ∈ t.duplicates) : ' ' ∉ s := by
  obtain ⟨r, hr, rfl⟩ := exists_row_of_mem_duplicates hmem
  exact (h r hr).1

/-- **The repeated symbols are reported**: each once, in the order of first appearance, with the number of its rows,
which is also the number of its lines in either artifact. -/
theorem reports_duplicates (t : Table) : t.Reports t.duplicates := by
  refine ⟨fun s n => Table.mem_duplicates_iff, Table.nodup_duplicates t, Table.ordered_duplicates t,
    Table.nodup_symbols_iff, ?_, ?_⟩
  · intro hinline s n hmem
    obtain ⟨hcount, -⟩ := Table.mem_duplicates_iff.mp hmem
    rw [← hcount]
    exact Table.countP_declarations hinline (Table.space_not_mem_of_duplicates hinline hmem)
  · intro hinline s n hmem
    obtain ⟨hcount, -⟩ := Table.mem_duplicates_iff.mp hmem
    rw [← hcount]
    exact Table.countP_definitions hinline (Table.space_not_mem_of_duplicates hinline hmem)

/-- Symbols that begin each other, one of them with a parenthesis behind it. -/
def Table.nested : Table :=
  ⟨[⟨"EA".toList, 1, []⟩, ⟨"E".toList, 2, "EA 1".toList⟩, ⟨"E)".toList, 3, []⟩, ⟨"E".toList, 4, []⟩,
    ⟨"EA".toList, 5, "x\") return \"y".toList⟩, ⟨"E".toList, 6, []⟩]⟩

theorem reports_duplicates_nested :
    Table.nested.SymbolsInline ∧ Table.nested.duplicates = [("EA".toList, 2), ("E".toList, 3)] ∧
      (lines Table.nested.declarations).countP ("#define HOST_".toList ++ "E".toList ++ [' '] <+: ·) = 3 ∧
      ((lines Table.nested.definitions).map Bindings.statement).countP
        ("if (e == HOST_".toList ++ "E".toList ++ ") return \"".toList <+: ·) = 3 := by
  have hinline : Table.nested.SymbolsInline := by decide
  have hreport : Table.nested.duplicates = [("EA".toList, 2), ("E".toList, 3)] := by decide
  have hmem : ("E".toList, 3) ∈ Table.nested.duplicates := by
    rw [hreport]
    exact List.mem_cons_of_mem _ (List.mem_cons_self ..)
  exact ⟨hinline, hreport, (reports_duplicates Table.nested).definitions hinline _ _ hmem,
    (reports_duplicates Table.nested).comparisons hinline _ _ hmem⟩

end ErrnoBindings
