import ErrnoBindings.Listing.Canonical
import ErrnoBindings.Proofs.Text.Words

/-!
# A canonical table and its listing

What a listing says of a table is settled by the words of its lines. A row that is canonical is written as its words
with single spaces between them (`Row.toLine_eq_joinWords`), so that its line has these words and no others, and is
read as the row that was written (`Row.ofLine_toLine`). A table is read row by row, each from a line of its own.

With `Table.canonical_ofListing` this makes the canonical tables exactly those that some listing gives, and the
written listing of a table one that gives it (`Table.canonical_iff_listing`).
-/

namespace ErrnoBindings

namespace Row

/-- A line is read by its words, wherever they stand in it. -/
theorem ofLine_of_words {lineNo : Nat} {line symbol numeral : Text} {rest : List Text} {value : Int64}
    (hwords : words line = symbol :: numeral :: rest) (hvalue : Numeral.read? numeral = some value) :
    ofLine lineNo line = .ok ⟨symbol, value, joinWords rest⟩ := by
  rw [← map_text_locateWords] at hwords
  obtain ⟨s, tail, hline, rfl, htail⟩ := List.map_eq_cons_iff.mp hwords
  obtain ⟨n, more, rfl, rfl, rfl⟩ := List.map_eq_cons_iff.mp htail
  rw [ofLine, hline]
  simp only [hvalue]

/-- A row is written as its words with single spaces between them. Without a description there is no space behind
the value. -/
theorem toLine_eq_joinWords {r : Row} {ws : List Text} (hws : ∀ w ∈ ws, IsWord w)
    (hdescription : r.description = joinWords ws) :
    r.toLine = joinWords (r.symbol :: Numeral.print r.value :: ws) := by
  rw [toLine, joinWords_cons_cons, hdescription]
  cases ws with
  | nil => simp
  | cons w ws =>
    rw [if_neg (joinWords_ne_nil hws (List.cons_ne_nil w ws)), joinWords_cons_cons]
    simp

/-- The line of a canonical row is made of words, the first two of which are the symbol and the numeral. -/
theorem Canonical.exists_words {r : Row} (h : r.Canonical) :
    ∃ ws, (∀ w ∈ r.symbol :: Numeral.print r.value :: ws, IsWord w) ∧
      r.toLine = joinWords (r.symbol :: Numeral.print r.value :: ws) ∧ r.description = joinWords ws := by
  obtain ⟨hsymbol, ws, hws, hdescription⟩ := h
  refine ⟨ws, fun w hw => ?_, toLine_eq_joinWords hws hdescription, hdescription⟩
  rcases List.mem_cons.mp hw with rfl | hw
  · exact hsymbol
  · rcases List.mem_cons.mp hw with rfl | hw
    · exact isWord_print _
    · exact hws w hw

/-- A canonical row is written as one line. -/
theorem isLine_toLine {r : Row} (h : r.Canonical) : IsLine r.toLine := by
  obtain ⟨ws, hws, hline, -⟩ := h.exists_words
  rw [hline]
  exact isLine_joinWords hws

/-- A canonical row is read back from its line. -/
theorem ofLine_toLine {r : Row} (h : r.Canonical) (lineNo : Nat) : ofLine lineNo r.toLine = .ok r := by
  obtain ⟨ws, hws, hline, hdescription⟩ := h.exists_words
  have hwords : words r.toLine = r.symbol :: Numeral.print r.value :: ws := by
    rw [hline]
    exact words_joinWords hws
  rw [ofLine_of_words hwords (Numeral.read?_print r.value), ← hdescription]

end Row

/-- Canonical rows are read back from their lines, whatever number the first line has. -/
theorem readRows_map_toLine {rs : List Row} (h : ∀ r ∈ rs, r.Canonical) (lineNo : Nat) :
    readRows lineNo (rs.map Row.toLine) = .ok rs := by
  induction rs generalizing lineNo with
  | nil => rfl
  | cons r rs ih =>
    have hr := Row.ofLine_toLine (h r (List.mem_cons_self ..)) lineNo
    have hrs := ih (fun q hq => h q (List.mem_cons_of_mem _ hq)) (lineNo + 1)
    rw [List.map_cons, readRows_cons_ok hr, hrs]
    rfl

namespace Table

/-- A canonical table is read back from its listing. -/
theorem ofListing_toListing {t : Table} (h : t.Canonical) : ofListing t.toListing = .ok t := by
  have hlines : lines t.toListing = t.rows.map Row.toLine := by
    refine lines_unlines fun l hl => ?_
    obtain ⟨r, hr, rfl⟩ := List.mem_map.mp hl
    exact Row.isLine_toLine (h r hr)
  rw [ofListing, hlines, readRows_map_toLine h]

/-- **Reading and writing listings are inverse to each other.** The tables that can be read from a listing are the
canonical ones, and these are the ones that their own listing gives back. Writing what was read and reading it again
comes to what the first reading came to, the refusals of the listings that are not read included. -/
theorem canonical_iff_listing :
    (∀ t : Table, t.Canonical ↔ ∃ text, ofListing text = .ok t) ∧
    (∀ t : Table, t.Canonical ↔ ofListing t.toListing = .ok t) ∧
    (∀ text, ((ofListing text).bind fun t => ofListing t.toListing) = ofListing text) := by
  refine ⟨fun t => ⟨fun h => ⟨_, ofListing_toListing h⟩, ?_⟩, fun t => ⟨ofListing_toListing, canonical_ofListing⟩,
    fun text => ?_⟩
  · rintro ⟨text, h⟩
    exact canonical_ofListing h
  · cases h : ofListing text with
    | error f => rfl
    | ok t => exact ofListing_toListing (canonical_ofListing h)

end Table

end ErrnoBindings
