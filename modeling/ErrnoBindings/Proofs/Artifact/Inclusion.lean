import ErrnoBindings.Artifact.Macros
import ErrnoBindings.Proofs.Artifact.Lookup

/-!
# Including the header

What keeps a header from being read twice is its guard: a conditional around everything that holds as long as some
macro is not defined, and the definition of that macro inside. This works only if nothing between the two ends of the
conditional opens or closes another one. The lines of which this is true are called plain here (`Directive.isPlain`).

For any lines of that shape, two facts say all there is to say.

* Where the guard is not defined, the plain lines are read as if there were no conditional around them
  (`Inclusion.readAll_of_unguarded`).
* Where it is defined, nothing happens at all (`Inclusion.readAll_of_guarded`).

The header has this shape for every table whose symbols stay on their lines: what a row contributes is always a
definition, of a name that is never the guard's. So the first inclusion defines the constants, each with the value of
its last row, and any later one leaves everything as it was (`include_once`).
-/

namespace ErrnoBindings

namespace Directive

/-- A line neither opens nor closes a conditional. -/
def isPlain (line : Text) : Bool :=
  match ofLine line with
  | ifNotDefined _ => false
  | endConditional => false
  | define _ _ => true
  | passOn => true

/-- The definition that a line makes, if it makes one. -/
def definition? (line : Text) : Option (Text × Text) :=
  match ofLine line with
  | define name body => some (name, body)
  | _ => none

end Directive

namespace Inclusion

/-! ## Plain lines -/

/-- The state of an inclusion after some plain lines in a place that counts: what they define is defined, and those
that define nothing are passed on. -/
def having (s : Inclusion) (ls : List Text) : Inclusion :=
  { s with
    definitions := (ls.filterMap Directive.definition?).reverse ++ s.definitions
    passed := (ls.filter fun l => (Directive.definition? l).isNone).reverse ++ s.passed }

theorem having_having (s : Inclusion) (ls ms : List Text) : (s.having ls).having ms = s.having (ls ++ ms) := by
  simp only [having, List.filterMap_append, List.filter_append, List.reverse_append, List.append_assoc]

/-- A plain line counts where its place counts. -/
theorem read_of_counts {s : Inclusion} {line : Text} (hs : s.counts = true) (hline : Directive.isPlain line = true) :
    s.read line = s.having [line] := by
  cases hdirective : Directive.ofLine line with
  | ifNotDefined name => simp [Directive.isPlain, hdirective] at hline
  | endConditional => simp [Directive.isPlain, hdirective] at hline
  | define name body => simp [read, having, Directive.definition?, hdirective, hs]
  | passOn => simp [read, having, Directive.definition?, hdirective, hs]

/-- So do plain lines one after the other. -/
theorem readAll_of_counts {s : Inclusion} {ls : List Text} (hs : s.counts = true)
    (hls : ∀ l ∈ ls, Directive.isPlain l = true) : s.readAll ls = s.having ls := by
  induction ls generalizing s with
  | nil => rfl
  | cons l ls ih =>
    have hfirst := read_of_counts hs (hls l (List.mem_cons_self ..))
    have hrest := ih (s := s.having [l]) hs fun m hm => hls m (List.mem_cons_of_mem _ hm)
    rw [readAll_cons, hfirst, hrest, having_having]
    rfl

/-- Plain lines do nothing where their place does not count. -/
theorem readAll_of_not_counts {s : Inclusion} {ls : List Text} (hs : s.counts = false)
    (hls : ∀ l ∈ ls, Directive.isPlain l = true) : s.readAll ls = s := by
  induction ls with
  | nil => rfl
  | cons l ls ih =>
    have hplain := hls l (List.mem_cons_self ..)
    have hfirst : s.read l = s := by
      refine read_of_not_counts hs (fun name h => ?_) fun h => ?_
      · simp [Directive.isPlain, h] at hplain
      · simp [Directive.isPlain, h] at hplain
    rw [readAll_cons, hfirst]
    exact ih fun m hm => hls m (List.mem_cons_of_mem _ hm)

/-! ## Lines with a guard around them -/

section Guarded

variable {opening closing guard : Text} {inner : List Text} (hopening : Directive.ofLine opening = .ifNotDefined guard)
  (hinner : ∀ l ∈ inner, Directive.isPlain l = true) (hclosing : Directive.ofLine closing = .endConditional)

include hopening hinner hclosing

/-- Where the guard is not defined, the lines inside are read as if they stood by themselves. -/
theorem readAll_of_unguarded {s : Inclusion} (hs : s.counts = true) (hguard : s.value? guard = none) :
    s.readAll (opening :: (inner ++ [closing])) = s.having inner := by
  have hopen : s.read opening = { s with conditionals := true :: s.conditionals } := by
    simp [read, hopening, hguard]
  have hcounts : Inclusion.counts { s with conditionals := true :: s.conditionals } = true := by
    simpa [counts] using hs
  rw [readAll_cons, hopen, readAll_append, readAll_of_counts hcounts hinner, readAll_cons, readAll_nil, read, hclosing]
  rfl

/-- Where the guard is defined, nothing happens, and the conditional is closed again. -/
theorem readAll_of_guarded {s : Inclusion} (hguard : s.value? guard ≠ none) :
    s.readAll (opening :: (inner ++ [closing])) = s := by
  have hopen : s.read opening = { s with conditionals := false :: s.conditionals } := by
    simp [read, hopening, Option.isNone_eq_false_iff.mpr (Option.isSome_iff_ne_none.mpr hguard)]
  have hcounts : Inclusion.counts { s with conditionals := false :: s.conditionals } = false := by
    simp [counts]
  rw [readAll_cons, hopen, readAll_append, readAll_of_not_counts hcounts hinner, readAll_cons, readAll_nil, read,
    hclosing]

end Guarded

end Inclusion

/-! ## The header -/

namespace Table

/-- The line that opens the conditional around the header. -/
def openingLine : Text := "#ifndef ".toList ++ includeGuard

/-- The line that closes it. -/
def closingLine : Text := "#endif /* ".toList ++ includeGuard ++ " */".toList

/-- The lines between them. -/
def guardedLines (t : Table) : List Text :=
  ["#define ".toList ++ includeGuard,
    [],
    "#include <stdint.h>".toList,
    [],
    "extern int32_t ".toList ++ errnoVariable ++ ";".toList,
    []] ++
  t.constantLines ++
  ["const char* ".toList ++ strerrorFunction ++ "(int32_t);".toList,
    []]

/-- The header has its guard around all of its lines. -/
theorem declarationLines_eq (t : Table) : t.declarationLines = openingLine :: (t.guardedLines ++ [closingLine]) := by
  rw [declarationLines, guardedLines, List.append_assoc _ _ [closingLine]]
  rfl

/-- What the lines of the header define: the guard, and the constants in table order. -/
def macros (t : Table) : List (Text × Text) :=
  (includeGuard, []) :: t.rows.map fun r => (r.constantName, constantValue r.value)

theorem definition?_definition {r : Row} (h : ' ' ∉ r.symbol) :
    Directive.definition? r.definition = some (r.constantName, constantValue r.value) := by
  rw [Directive.definition?, Directive.ofLine_definition h]

theorem isPlain_definition {r : Row} (h : ' ' ∉ r.symbol) : Directive.isPlain r.definition = true := by
  rw [Directive.isPlain, Directive.ofLine_definition h]

/-- No line inside opens or closes a conditional, whatever the symbols are. -/
theorem isPlain_guardedLines {t : Table} (h : t.SymbolsInline) : ∀ l ∈ t.guardedLines, Directive.isPlain l = true := by
  intro l hl
  rw [guardedLines] at hl
  simp only [List.mem_append] at hl
  rcases hl with (hl | hl) | hl
  · revert l
    decide
  · obtain rfl | ⟨r, hr, rfl⟩ | rfl := mem_constantLines hl
    · decide
    · exact isPlain_definition (h r hr).1
    · decide
  · revert l
    decide

/-- The lines inside define the guard and the constants, and nothing else. -/
theorem definitions_guardedLines {t : Table} (h : t.SymbolsInline) :
    t.guardedLines.filterMap Directive.definition? = t.macros := by
  have hconstants : t.constantLines.filterMap Directive.definition? =
      t.rows.map fun r => (r.constantName, constantValue r.value) := by
    rw [filterMap_constantLines (by decide) (by decide), List.filterMap_eq_map_iff_forall_eq_some]
    exact fun r hr => definition?_definition (h r hr).1
  rw [guardedLines, List.filterMap_append, List.filterMap_append, hconstants]
  exact List.append_nil _

end Table

/-! ## What an inclusion leaves behind -/

/-- The header of a table has been included: its conditional is closed, its macros are defined, and no others. -/
structure Inclusion.Settled (s : Inclusion) (t : Table) : Prop where
  /-- no conditional is left open -/
  closed : s.conditionals = []
  /-- and none was closed that had not been opened -/
  matched : s.unmatched = 0
  /-- the guard is defined, and by one line only -/
  guarded : s.value? includeGuard ≠ none ∧ (s.definitions.map Prod.fst).count includeGuard = 1
  /-- the constant of a row is not the guard, and its body is the value of the last row with that row's symbol -/
  constants : ∀ r ∈ t.rows, r.constantName ≠ includeGuard ∧ ∃ v, t.LastValue r.symbol v ∧
    s.value? r.constantName = some (constantValue v) ∧ Bindings.value? (constantValue v) = some v.toInt
  /-- any other macro stands for what it stood for before -/
  others : ∀ name, name ≠ includeGuard → (∀ r ∈ t.rows, r.constantName ≠ name) → s.value? name = s.before name

namespace Table

/-- The first definition of a name, from the end of the header, is that of the last row with it, and behind all rows
comes the guard. -/
theorem reverse_macros (t : Table) :
    t.macros.reverse =
      t.rows.reverse.map (fun r => (r.constantName, constantValue r.value)) ++ [(includeGuard, [])] := by
  rw [macros, List.reverse_cons, List.map_reverse]

/-- No row defines the guard. -/
theorem count_guard (t : Table) : (t.macros.reverse.map Prod.fst).count includeGuard = 1 := by
  have hrows : (t.rows.map Row.constantName).count includeGuard = 0 := by
    refine List.count_eq_zero_of_not_mem fun hmem => ?_
    obtain ⟨r, -, hr⟩ := List.mem_map.mp hmem
    exact constantName_ne_includeGuard r hr
  rw [List.map_reverse, List.count_reverse, macros, List.map_cons, List.map_map, List.count_cons_self]
  exact congrArg (· + 1) hrows

section Values

variable {t : Table} {s : Inclusion} (hs : s.definitions = t.macros.reverse)

include hs

theorem value?_includeGuard : s.value? includeGuard = some [] := by
  have hrows : (t.rows.reverse.map fun r => (r.constantName, constantValue r.value)).find?
      (fun d => d.1 == includeGuard) = none := by
    rw [List.find?_eq_none]
    intro d hd
    obtain ⟨r, -, rfl⟩ := List.mem_map.mp hd
    simpa using constantName_ne_includeGuard r
  rw [Inclusion.value?, hs, reverse_macros, List.find?_append, hrows, Option.none_or, List.find?_cons_of_pos]
  exact beq_self_eq_true includeGuard

/-- A constant stands for the value that counts for its symbol. -/
theorem value?_constantName {r : Row} {v : Int64} (hlast : t.LastValue r.symbol v) :
    s.value? r.constantName = some (constantValue v) := by
  obtain ⟨q, hq, rfl⟩ := Option.map_eq_some_iff.mp (lastValue_iff.mp hlast)
  have hrows : (t.rows.reverse.map fun q => (q.constantName, constantValue q.value)).find?
      (fun d => d.1 == r.constantName) = some (q.constantName, constantValue q.value) := by
    have hname : ((fun d : Text × Text => d.1 == r.constantName) ∘ fun p : Row =>
        (p.constantName, constantValue p.value)) = fun p => p.symbol == r.symbol :=
      funext fun p => Row.constantName_beq p r
    rw [List.find?_map, hname, hq]
    rfl
  rw [Inclusion.value?, hs, reverse_macros, List.find?_append, hrows]
  rfl

/-- A name that is neither the guard nor a constant stands for what it stood for before. -/
theorem value?_other {name : Text} (hguard : name ≠ includeGuard) (hrows : ∀ r ∈ t.rows, r.constantName ≠ name) :
    s.value? name = s.before name := by
  have hnone : t.macros.reverse.find? (fun d => d.1 == name) = none := by
    rw [List.find?_eq_none]
    intro d hd
    rcases List.mem_cons.mp (List.mem_reverse.mp hd) with rfl | hd
    · simpa using hguard.symm
    · obtain ⟨r, hr, rfl⟩ := List.mem_map.mp hd
      simpa using hrows r hr
  rw [Inclusion.value?, hs, hnone]

end Values

end Table

namespace Table

variable {t : Table} (ht : t.SymbolsInline)

include ht

/-- The lines of the header, as a preprocessor meets them. -/
theorem lines_declarations_eq : lines t.declarations = openingLine :: (t.guardedLines ++ [closingLine]) := by
  rw [lines_declarations ht, declarationLines_eq]

/-- Where the guard is not defined, including the header is reading the lines inside. -/
theorem ofLines_declarations {before : Macros} (hguard : before includeGuard = none) :
    Inclusion.ofLines before (lines t.declarations) = (Inclusion.start before).having t.guardedLines := by
  have hopening : Directive.ofLine openingLine = .ifNotDefined includeGuard := by decide
  have hclosing : Directive.ofLine closingLine = .endConditional := by decide
  rw [lines_declarations_eq ht]
  exact Inclusion.readAll_of_unguarded hopening (isPlain_guardedLines ht) hclosing rfl hguard

/-- Where the guard is defined, reading the header does nothing. -/
theorem readAll_declarations {s : Inclusion} (hguard : s.value? includeGuard ≠ none) :
    s.readAll (lines t.declarations) = s := by
  have hopening : Directive.ofLine openingLine = .ifNotDefined includeGuard := by decide
  have hclosing : Directive.ofLine closingLine = .endConditional := by decide
  rw [lines_declarations_eq ht]
  exact Inclusion.readAll_of_guarded hopening (isPlain_guardedLines ht) hclosing hguard

/-- Reading the lines inside leaves the header included. -/
theorem settled_having (before : Macros) : ((Inclusion.start before).having t.guardedLines).Settled t := by
  have hdefinitions : ((Inclusion.start before).having t.guardedLines).definitions = t.macros.reverse := by
    rw [← definitions_guardedLines ht]
    exact List.append_nil _
  refine ⟨rfl, rfl, ⟨?_, ?_⟩, fun r hr => ⟨constantName_ne_includeGuard r, ?_⟩, ?_⟩
  · rw [value?_includeGuard hdefinitions]
    exact Option.some_ne_none _
  · rw [hdefinitions]
    exact count_guard t
  · obtain ⟨v, hlast⟩ := exists_lastValue hr
    exact ⟨v, hlast, value?_constantName hdefinitions hlast, Bindings.value?_constantValue v⟩
  · intro name hname hrows
    exact value?_other hdefinitions hname hrows

end Table

/-- **Including the header twice is including it once**, where its guard is not defined to begin with. The first
inclusion closes its conditional and defines the constants. A second one, be it directly behind the first or a new one
under the macros that the first has left, passes no line on and defines nothing. -/
theorem include_once {t : Table} {before : Macros} (ht : t.SymbolsInline) (hguard : before includeGuard = none) :
    ∃ s, Inclusion.ofLines before (lines t.declarations) = s ∧ s.before = before ∧ s.Settled t ∧
      s.readAll (lines t.declarations) = s ∧
      Inclusion.ofLines before (lines (t.declarations ++ t.declarations)) = s ∧
      Inclusion.ofLines s.value? (lines t.declarations) = Inclusion.start s.value? := by
  have hfirst := Table.ofLines_declarations ht hguard
  have hsettled := Table.settled_having ht before
  have hagain := Table.readAll_declarations ht hsettled.guarded.1
  refine ⟨_, hfirst, rfl, hsettled, hagain, ?_, Table.readAll_declarations ht hsettled.guarded.1⟩
  have hend : Terminated t.declarations := terminated_unlines t.declarationLines
  rw [Inclusion.ofLines] at hfirst ⊢
  rw [lines_append hend, Inclusion.readAll_append, hfirst, hagain]

/-- Rows that look like something else to a preprocessor: a symbol that closes conditionals, on two rows, and one that
is the guard. -/
def Table.disguised : Table :=
  ⟨[⟨"#endif".toList, -1, []⟩, ⟨includeGuard, 2, []⟩, ⟨"#endif".toList, 3, []⟩]⟩

/-- Macros that were defined before a header is included, one of them under the name of a constant. -/
def Macros.earlier : Macros := fun name =>
  if name = "HOST_#endif".toList ∨ name = "NULL".toList then some "0".toList else none

theorem include_once_disguised :
    Table.disguised.SymbolsInline ∧ Macros.earlier includeGuard = none ∧
      ∃ s, Inclusion.ofLines Macros.earlier (lines Table.disguised.declarations) = s ∧ s.Settled Table.disguised ∧
        s.readAll (lines Table.disguised.declarations) = s ∧
        s.value? "HOST_#endif".toList = some "3".toList ∧ s.value? "NULL".toList = some "0".toList := by
  have hsymbols : Table.disguised.SymbolsInline := by decide
  have hguard : Macros.earlier includeGuard = none := by decide
  obtain ⟨s, hs, -, hsettled, hagain, -, -⟩ := include_once hsymbols hguard
  refine ⟨hsymbols, hguard, s, hs, hsettled, hagain, ?_, ?_⟩
  · rw [← hs]
    rfl
  · rw [← hs]
    rfl

end ErrnoBindings
