import ErrnoBindings.Listing.Canonical
import ErrnoBindings.Proofs.Artifact.RoundTrip

/-!
# The generated function looks up the table

A program that is built from the two artifacts asks the generated function for the description of a value. What it
is told is said here in terms of the table, and it is not quite what a lookup in the table says. A symbol that
stands on several rows is one constant, and the constant has the value of the last of these rows, since the last
definition counts. So a comparison that was written for one row may be decided by the value of another.

* `Table.LastValue` is the value that counts for a symbol, and `Table.Means` says that a row's constant has it.
* The function answers with the first row whose constant means the value asked for (`Table.Selects`). It is never
  one whose symbol has been seen before: that row would have been chosen the first time
  (`Table.Selects.symbol_ne`).
* Where rows that share a symbol share their value, none of this shows, and the function is the lookup in the table
  (`strerror_bindings_of_agree`).
-/

namespace ErrnoBindings

namespace Table

/-! ## What a constant means -/

/-- `v` is the value of the last row that carries a symbol. -/
def LastValue (t : Table) (symbol : Text) (v : Int64) : Prop :=
  ∃ before r after, t.rows = before ++ r :: after ∧ r.symbol = symbol ∧ r.value = v ∧
    ∀ q ∈ after, q.symbol ≠ symbol

/-- The constant of a row stands for an integer: it is the value of the last row with that row's symbol. -/
def Means (t : Table) (e : Int) (r : Row) : Prop := ∃ v, t.LastValue r.symbol v ∧ v.toInt = e

/-- `r` is the first row of a table whose constant stands for an integer, and `before` are the rows in front of it. -/
def Selects (t : Table) (e : Int) (before : List Row) (r : Row) : Prop :=
  (∃ after, t.rows = before ++ r :: after) ∧ t.Means e r ∧ ∀ q ∈ before, ¬ t.Means e q

/-- The value that counts is found by looking through the rows from the end. -/
theorem lastValue_iff {t : Table} {symbol : Text} {v : Int64} :
    t.LastValue symbol v ↔ (t.rows.reverse.find? fun r => r.symbol == symbol).map Row.value = some v := by
  constructor
  · rintro ⟨before, r, after, hrows, rfl, rfl, hafter⟩
    have hfind : t.rows.reverse.find? (fun q => q.symbol == r.symbol) = some r := by
      rw [List.find?_eq_some_iff_append]
      refine ⟨beq_self_eq_true _, after.reverse, before.reverse, by simp [hrows], ?_⟩
      intro q hq
      simpa using hafter q (List.mem_reverse.mp hq)
    rw [hfind]
    rfl
  · intro h
    obtain ⟨r, hfind, rfl⟩ := Option.map_eq_some_iff.mp h
    obtain ⟨hs, after, before, hrows, hafter⟩ := List.find?_eq_some_iff_append.mp hfind
    refine ⟨before.reverse, r, after.reverse, ?_, by simpa using hs, rfl, ?_⟩
    · rw [← List.reverse_reverse t.rows, hrows]
      simp
    · intro q hq
      simpa using hafter q (List.mem_reverse.mp hq)

/-- Every symbol of a table has a value that counts. -/
theorem exists_lastValue {t : Table} {r : Row} (h : r ∈ t.rows) : ∃ v, t.LastValue r.symbol v := by
  have hsome : (t.rows.reverse.find? fun q => q.symbol == r.symbol).isSome = true := by
    rw [List.find?_isSome]
    exact ⟨r, List.mem_reverse.mpr h, beq_self_eq_true _⟩
  obtain ⟨q, hq⟩ := Option.isSome_iff_exists.mp hsome
  refine ⟨q.value, lastValue_iff.mpr ?_⟩
  rw [hq]
  rfl

/-- If any row means an integer, a first one is selected. -/
theorem exists_selects {t : Table} {e : Int} (h : ∃ r ∈ t.rows, t.Means e r) : ∃ before r, t.Selects e before r := by
  classical
  obtain ⟨r, hr, hmeans⟩ := h
  have hsome : (t.rows.find? fun q => decide (t.Means e q)).isSome = true := by
    rw [List.find?_isSome]
    exact ⟨r, hr, decide_eq_true hmeans⟩
  obtain ⟨q, hq⟩ := Option.isSome_iff_exists.mp hsome
  obtain ⟨hqmeans, before, after, hrows, hbefore⟩ := List.find?_eq_some_iff_append.mp hq
  refine ⟨before, q, ⟨after, hrows⟩, of_decide_eq_true hqmeans, fun p hp hm => ?_⟩
  have hnot := hbefore p hp
  rw [decide_eq_true hm] at hnot
  cases hnot

/-- A row whose symbol has been seen before is never selected: it means what the earlier row meant. -/
theorem Selects.symbol_ne {t : Table} {e : Int} {before : List Row} {r : Row} (h : t.Selects e before r) :
    ∀ q ∈ before, q.symbol ≠ r.symbol := by
  obtain ⟨-, hmeans, hbefore⟩ := h
  intro q hq hs
  refine hbefore q hq ?_
  rw [Means]
  rw [hs]
  exact hmeans

/-- A listing that is read gives symbols that stay in their place, since they are words. -/
theorem symbolsInline_of_canonical {t : Table} (h : t.Canonical) : t.SymbolsInline := by
  intro r hr
  obtain ⟨⟨-, hword⟩, -⟩ := h r hr
  refine ⟨fun hm => ?_, fun hm => ?_⟩
  · exact absurd (hword _ hm) (by decide)
  · exact absurd (hword _ hm) (by decide)

end Table

/-! ## What the function answers -/

namespace Bindings

/-- The first comparison that holds answers. -/
theorem answer_of_holds {b : Bindings} {e : Int} {before : List (Text × Text)} {name : Text}
    (hbefore : ∀ p ∈ before, ∃ v, b.constant p.1 = some v ∧ v ≠ e) (hname : b.constant name = some e)
    (text : Text) (after : List (Text × Text)) :
    b.answer e (before ++ (name, text) :: after) = some text := by
  induction before with
  | nil =>
    rw [List.nil_append, answer, hname]
    exact if_pos rfl
  | cons p before ih =>
    obtain ⟨v, hv, hne⟩ := hbefore p (List.mem_cons_self ..)
    rw [List.cons_append, answer, hv]
    dsimp only
    rw [if_neg hne]
    exact ih fun q hq => hbefore q (List.mem_cons_of_mem _ hq)

/-- Where no comparison holds, the statement at the end answers. -/
theorem answer_of_none_holds {b : Bindings} {e : Int} {ps : List (Text × Text)}
    (h : ∀ p ∈ ps, ∃ v, b.constant p.1 = some v ∧ v ≠ e) : b.answer e ps = some b.fallback := by
  induction ps with
  | nil => rfl
  | cons p ps ih =>
    obtain ⟨v, hv, hne⟩ := h p (List.mem_cons_self ..)
    rw [answer, hv]
    dsimp only
    rw [if_neg hne]
    exact ih fun q hq => h q (List.mem_cons_of_mem _ hq)

end Bindings

/-- Constants have one name exactly when their rows have one symbol. -/
theorem Row.constantName_beq (q r : Row) : (q.constantName == r.constantName) = (q.symbol == r.symbol) := by
  rw [Bool.eq_iff_iff, beq_iff_eq, beq_iff_eq]
  exact List.append_right_inj constantPrefix

namespace Table

/-- The constant of a row is defined, and with the value that counts for its symbol. -/
theorem constant_bindings_iff {t : Table} {e : Int} {r : Row} :
    t.bindings.constant r.constantName = some e ↔ t.Means e r := by
  have hname : (fun q : Row => q.constantName == r.constantName) = fun q => q.symbol == r.symbol :=
    funext fun q => Row.constantName_beq q r
  have hfind : t.bindings.constant r.constantName =
      ((t.rows.reverse.find? fun q => q.symbol == r.symbol).map Row.value).map Int64.toInt := by
    rw [Bindings.constant, bindings]
    rw [← List.map_reverse, List.find?_map, ← hname, Option.map_map, Option.map_map]
    rfl
  rw [hfind, Option.map_eq_some_iff]
  rw [Means]
  simp only [lastValue_iff]

/-- The comparison for a row that does not mean a value is made, and fails. -/
theorem exists_constant_ne {t : Table} {e : Int} {r : Row} (hr : r ∈ t.rows) (h : ¬ t.Means e r) :
    ∃ v, t.bindings.constant r.constantName = some v ∧ v ≠ e := by
  obtain ⟨v, hv⟩ := exists_lastValue hr
  refine ⟨v.toInt, constant_bindings_iff.mpr ⟨v, hv, rfl⟩, ?_⟩
  rintro rfl
  exact h ⟨v, hv, rfl⟩

/-- The function answers with the row that is selected. -/
theorem strerror_of_selects {t : Table} {e : Int} {before : List Row} {r : Row} (h : t.Selects e before r) :
    t.bindings.strerror e = some r.description := by
  obtain ⟨⟨after, hrows⟩, hmeans, hbefore⟩ := h
  rw [Bindings.strerror]
  have hcomparisons : t.bindings.comparisons =
      before.map (fun q => (q.constantName, q.description)) ++
        (r.constantName, r.description) :: after.map fun q => (q.constantName, q.description) := by
    rw [comparisons_bindings, hrows, List.map_append, List.map_cons]
  rw [hcomparisons]
  refine Bindings.answer_of_holds ?_ (constant_bindings_iff.mpr hmeans) _ _
  intro p hp
  obtain ⟨q, hq, rfl⟩ := List.mem_map.mp hp
  refine exists_constant_ne ?_ (hbefore q hq)
  rw [hrows]
  exact List.mem_append_left _ hq

/-- The function answers as for an unknown value when no row is selected. -/
theorem strerror_of_not_means {t : Table} {e : Int} (h : ∀ r ∈ t.rows, ¬ t.Means e r) :
    t.bindings.strerror e = some unknownError := by
  refine Bindings.answer_of_none_holds ?_
  intro p hp
  obtain ⟨r, hr, rfl⟩ := List.mem_map.mp hp
  exact exists_constant_ne hr (h r hr)

/-- Where rows that share a symbol share their value, a row means its own value. -/
theorem means_iff_of_agree {t : Table}
    (h : ∀ r ∈ t.rows, ∀ q ∈ t.rows, r.symbol = q.symbol → r.value = q.value) {r : Row} (hr : r ∈ t.rows)
    {v : Int64} : t.Means v.toInt r ↔ r.value = v := by
  constructor
  · rintro ⟨w, ⟨before, q, after, hrows, hs, rfl, -⟩, hw⟩
    have hq : q ∈ t.rows := by
      rw [hrows]
      exact List.mem_append_right _ (List.mem_cons_self ..)
    rw [h r hr q hq hs.symm]
    exact Int64.toInt_inj.mp hw
  · rintro rfl
    obtain ⟨w, hlast⟩ := exists_lastValue hr
    have hw : w = r.value := by
      obtain ⟨before, q, after, hrows, hs, rfl, -⟩ := hlast
      refine h q ?_ r hr hs
      rw [hrows]
      exact List.mem_append_right _ (List.mem_cons_self ..)
    exact ⟨w, hlast, congrArg Int64.toInt hw⟩

/-- Where rows that share a symbol share their value, the function is the lookup in the table. -/
theorem strerror_bindings_of_agree {t : Table}
    (h : ∀ r ∈ t.rows, ∀ q ∈ t.rows, r.symbol = q.symbol → r.value = q.value) (v : Int64) :
    t.bindings.strerror v.toInt = some (t.strerror v) := by
  rw [strerror]
  cases hlookup : t.lookup v with
  | none =>
    refine strerror_of_not_means fun r hr hmeans => ?_
    exact lookup_eq_none_iff.mp hlookup r hr ((means_iff_of_agree h hr).mp hmeans)
  | some r =>
    obtain ⟨hv, before, after, hrows, hbefore⟩ := lookup_eq_some_iff.mp hlookup
    have hr : r ∈ t.rows := by
      rw [hrows]
      exact List.mem_append_right _ (List.mem_cons_self ..)
    refine strerror_of_selects ⟨⟨after, hrows⟩, (means_iff_of_agree h hr).mpr hv, fun q hq hmeans => ?_⟩
    have hqrows : q ∈ t.rows := by
      rw [hrows]
      exact List.mem_append_left _ hq
    exact hbefore q hq ((means_iff_of_agree h hqrows).mp hmeans)

end Table

/-- What it takes for bindings to look up a table. -/
structure Bindings.LooksUp (b : Bindings) (t : Table) : Prop where
  /-- every constant that is compared with is defined -/
  defined : ∀ p ∈ b.comparisons, ∃ v, b.constant p.1 = some v
  /-- the answer is the description of the row that is selected, whose symbol is on no row before it; or it is that of
  an unknown value, and no row means the value -/
  answers : ∀ e : Int,
    (∃ before r, t.Selects e before r ∧ (∀ q ∈ before, q.symbol ≠ r.symbol) ∧ b.strerror e = some r.description) ∨
      ((∀ r ∈ t.rows, ¬ t.Means e r) ∧ b.strerror e = some unknownError)
  /-- where rows that share a symbol share their value, the answer is that of the table -/
  agrees : (∀ r ∈ t.rows, ∀ q ∈ t.rows, r.symbol = q.symbol → r.value = q.value) →
    ∀ v : Int64, b.strerror v.toInt = some (t.strerror v)

/-- **The generated function looks up the table**, whatever listing the table was read from. -/
theorem bindings_of_listing {text : Text} {t : Table} (h : Table.ofListing text = .ok t) :
    ∃ b, Bindings.ofTexts? t.declarations t.definitions = some b ∧ b.LooksUp t := by
  have hinline := Table.symbolsInline_of_canonical (Table.canonical_ofListing h)
  refine ⟨t.bindings, Bindings.ofTexts?_artifacts hinline, ?_, ?_, ?_⟩
  · intro p hp
    obtain ⟨r, hr, rfl⟩ := List.mem_map.mp hp
    obtain ⟨v, hv⟩ := Table.exists_lastValue hr
    exact ⟨v.toInt, Table.constant_bindings_iff.mpr ⟨v, hv, rfl⟩⟩
  · intro e
    by_cases hmeans : ∃ r ∈ t.rows, t.Means e r
    · obtain ⟨before, r, hselects⟩ := Table.exists_selects hmeans
      exact Or.inl ⟨before, r, hselects, hselects.symbol_ne, Table.strerror_of_selects hselects⟩
    · have hnone : ∀ r ∈ t.rows, ¬ t.Means e r := fun r hr hm => hmeans ⟨r, hr, hm⟩
      exact Or.inr ⟨hnone, Table.strerror_of_not_means hnone⟩
  · intro hagree v
    exact Table.strerror_bindings_of_agree hagree v

/-- A table in which a symbol is defined again with the value of another one. -/
def Table.redefined : Table :=
  ⟨[⟨"EDUP".toList, 1, "first".toList⟩, ⟨"EALT".toList, 2, "second".toList⟩, ⟨"EDUP".toList, 2, "third".toList⟩]⟩

theorem bindings_of_listing_redefined :
    Table.ofListing "EDUP 1 first\nEALT 2  second\r\nEDUP +02 third".toList = .ok Table.redefined ∧
      ∃ b, Bindings.ofTexts? Table.redefined.declarations Table.redefined.definitions = some b ∧
        b.LooksUp Table.redefined := by
  have hread : Table.ofListing "EDUP 1 first\nEALT 2  second\r\nEDUP +02 third".toList = .ok Table.redefined := by
    rfl
  exact ⟨hread, bindings_of_listing hread⟩

/-- Of the value that both symbols have in the end, the function and the table know different descriptions. -/
example : Table.redefined.bindings.strerror 2 = some "first".toList ∧
    Table.redefined.strerror 2 = "second".toList := by decide

end ErrnoBindings
