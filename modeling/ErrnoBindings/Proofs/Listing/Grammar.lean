import ErrnoBindings.Listing.Row
import ErrnoBindings.Proofs.Text.Layout
import ErrnoBindings.Proofs.Text.Numeral

/-!
# What a line of a listing says

The words of a line settle what the line is, and nothing else does: neither the width of its gaps nor its number.
`Row.Judged` is the grammar, with one rule for each thing that words can come to. Two words, the second of which is a
numeral that fits, are a row, and the words behind them are its description. Words that are no row have exactly one
defect: they are none at all, or only one, or the second is no such numeral.

The rules do not overlap (`Row.Judged.unique`), and reading a line follows one of them
(`Row.exists_judged_ofLine`). So each rule says exactly when its answer is given (`Row.ofLine_judged`).
-/

namespace ErrnoBindings

/-- The defect that a malformed row has, with the line, its number and the place left aside. -/
def Fault.defect? : Fault → Option RowDefect
  | .malformedRow _ defect _ _ => some defect
  | _ => none

namespace Row

/-- What words say of the line that they stand on: which row it is, or which defect it has. -/
inductive Judged : List Text → Except RowDefect Row → Prop where
  /-- no word is no symbol -/
  | missingSymbol : Judged [] (.error .missingSymbol)
  /-- one word is a symbol without a value -/
  | missingValue {symbol : Text} : Judged [symbol] (.error .missingValue)
  /-- the second word is no numeral, or it is one that does not fit -/
  | invalidValue {symbol second : Text} {rest : List Text} :
      (∀ z, Numeral.StandsFor second z → ¬ Numeral.Fits z) →
        Judged (symbol :: second :: rest) (.error .invalidValue)
  /-- a symbol, a numeral that fits, and the words of the description -/
  | row {symbol numeral : Text} {rest : List Text} {value : Int64} {z : Int} :
      Numeral.StandsFor numeral z → Numeral.Fits z → value.toInt = z →
        Judged (symbol :: numeral :: rest) (.ok ⟨symbol, value, joinWords rest⟩)

/-- Words are judged in one way only. -/
theorem Judged.unique {ts : List Text} {o o' : Except RowDefect Row} (h : Judged ts o) (h' : Judged ts o') :
    o = o' := by
  cases h with
  | missingSymbol =>
    cases h'
    rfl
  | missingValue =>
    cases h'
    rfl
  | invalidValue hno =>
    cases h' with
    | invalidValue _ => rfl
    | row hz hfits _ => exact absurd hfits (hno _ hz)
  | row hz hfits hv =>
    cases h' with
    | invalidValue hno => exact absurd hfits (hno _ hz)
    | row hz' _ hv' =>
      have hvalue := Int64.toInt_inj.mp (hv.trans ((hz.unique hz').trans hv'.symm))
      rw [hvalue]

/-- A line is read as a row, or refused with a defect, and its words say so. -/
theorem exists_judged_ofLine (lineNo : Nat) (line : Text) :
    (∃ r, ofLine lineNo line = .ok r ∧ Judged (words line) (.ok r)) ∨
      ∃ defect span, ofLine lineNo line = .error (.malformedRow lineNo defect line span) ∧
        Judged (words line) (.error defect) := by
  rw [← map_text_locateWords, ofLine]
  rcases locateWords line with _ | ⟨symbol, _ | ⟨second, rest⟩⟩
  · exact Or.inr ⟨_, _, rfl, Judged.missingSymbol⟩
  · exact Or.inr ⟨_, _, rfl, Judged.missingValue⟩
  · dsimp only
    cases hread : Numeral.read? second.text with
    | none => exact Or.inr ⟨_, _, rfl, Judged.invalidValue (Numeral.read?_eq_none_iff.mp hread)⟩
    | some v =>
      have hv : Numeral.StandsFor second.text v.toInt := Numeral.read?_eq_some_iff.mp hread
      exact Or.inl ⟨_, rfl, Judged.row hv (Numeral.fits_toInt v) rfl⟩

/-- A line is read as the row that its words are judged to be. -/
theorem ofLine_eq_ok_iff {lineNo : Nat} {line : Text} {r : Row} :
    ofLine lineNo line = .ok r ↔ Judged (words line) (.ok r) := by
  obtain ⟨q, hq, hjudged⟩ | ⟨defect, span, herror, hjudged⟩ := exists_judged_ofLine lineNo line
  · rw [hq]
    constructor
    · intro h
      cases h
      exact hjudged
    · intro h
      cases hjudged.unique h
      rfl
  · rw [herror]
    constructor
    · intro h
      cases h
    · intro h
      cases hjudged.unique h

/-- A line is refused with the defect that its words are judged to have. -/
theorem ofLine_eq_error_iff {lineNo : Nat} {line : Text} {defect : RowDefect} :
    (∃ span, ofLine lineNo line = .error (.malformedRow lineNo defect line span)) ↔
      Judged (words line) (.error defect) := by
  obtain ⟨q, hq, hjudged⟩ | ⟨found, span, herror, hjudged⟩ := exists_judged_ofLine lineNo line
  · rw [hq]
    constructor
    · rintro ⟨_, h⟩
      cases h
    · intro h
      cases hjudged.unique h
  · rw [herror]
    constructor
    · rintro ⟨_, h⟩
      cases h
      exact hjudged
    · intro h
      cases hjudged.unique h
      exact ⟨span, rfl⟩

/-- Lines with the same words are read as the same row, or refused with the same defect, wherever they stand. -/
theorem mapError_ofLine_congr {line line' : Text} (h : words line' = words line) (lineNo lineNo' : Nat) :
    (ofLine lineNo' line').mapError Fault.defect? = (ofLine lineNo line).mapError Fault.defect? := by
  obtain ⟨r, hr, hjudged⟩ | ⟨defect, span, herror, hjudged⟩ := exists_judged_ofLine lineNo line
  · rw [← h] at hjudged
    have hr' : ofLine lineNo' line' = .ok r := ofLine_eq_ok_iff.mpr hjudged
    rw [hr, hr']
  · rw [← h] at hjudged
    obtain ⟨span', herror'⟩ : ∃ s, ofLine lineNo' line' = .error (.malformedRow lineNo' defect line' s) :=
      ofLine_eq_error_iff.mpr hjudged
    rw [herror, herror']
    rfl

/-- **A line of a listing is judged by its words.** They are the maximal runs of the line. The line is read as a row
exactly when its first two words are a symbol and a numeral that fits, and it is refused with a defect exactly when
its words have it; there is no third outcome, and lines with the same words have the same one, wherever they stand. -/
theorem ofLine_judged (line : Text) :
    (∀ ts, Runs line ts ↔ ts = words line) ∧
      (∀ lineNo r, ofLine lineNo line = .ok r ↔ Judged (words line) (.ok r)) ∧
      (∀ lineNo defect, (∃ span, ofLine lineNo line = .error (.malformedRow lineNo defect line span)) ↔
        Judged (words line) (.error defect)) ∧
      (∀ lineNo, (∃ r, ofLine lineNo line = .ok r) ∨
        ∃ defect span, ofLine lineNo line = .error (.malformedRow lineNo defect line span)) ∧
      ∀ lineNo lineNo' line', words line' = words line →
        (ofLine lineNo' line').mapError Fault.defect? = (ofLine lineNo line).mapError Fault.defect? := by
  refine ⟨fun ts => runs_iff, fun lineNo r => ofLine_eq_ok_iff, fun lineNo defect => ofLine_eq_error_iff, ?_, ?_⟩
  · intro lineNo
    obtain ⟨r, hr, -⟩ | ⟨defect, span, herror, -⟩ := exists_judged_ofLine lineNo line
    · exact Or.inl ⟨r, hr⟩
    · exact Or.inr ⟨defect, span, herror⟩
  · intro lineNo lineNo' line' hwords
    exact mapError_ofLine_congr hwords lineNo lineNo'

/-- The least value there is, with zeros in front, between gaps of several widths. -/
example : ofLine 1 "\u3000EMIN\t-0009223372036854775808 least  of all ".toList =
    .ok ⟨"EMIN".toList, -9223372036854775808, "least of all".toList⟩ := rfl

end Row

end ErrnoBindings
