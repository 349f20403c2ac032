import ErrnoBindings.Text.Numeral
import Mathlib.Data.Nat.Digits.Defs

/-!
# What numerals stand for

A numeral is one sign, or none, and at least one decimal digit. It stands for an integer, which its digits and their
places settle: zeros in front add nothing, and a sign in front of zero is no different from none. `Numeral.StandsFor`
says this without regard to any bound.

A value has 64 bits. Reading gives a value exactly when the numeral stands for it (`Numeral.read?_eq_some_iff`), and
gives none when what it reads is no numeral or stands for an integer that has no place in 64 bits
(`Numeral.read?_eq_none_iff`).
-/

namespace ErrnoBindings.Numeral

/-- One or more decimal digits. -/
def IsDigits (ds : Text) : Prop := ds ≠ [] ∧ ∀ c ∈ ds, '0' ≤ c ∧ c ≤ '9'

/-- The number that decimal digits stand for: the last of them counts ones, the one before it tens, and so on. -/
def ofDigits (ds : Text) : Nat := Nat.ofDigits 10 (ds.map fun c => c.toNat - '0'.toNat).reverse

/-- A text is a numeral, and it stands for an integer. -/
inductive StandsFor : Text → Int → Prop where
  /-- digits alone -/
  | digits {ds : Text} : IsDigits ds → StandsFor ds (ofDigits ds)
  /-- digits behind a plus sign -/
  | plus {ds : Text} : IsDigits ds → StandsFor ('+' :: ds) (ofDigits ds)
  /-- digits behind a minus sign -/
  | minus {ds : Text} : IsDigits ds → StandsFor ('-' :: ds) (-ofDigits ds)

/-- An integer has a place in 64 bits. -/
def Fits (z : Int) : Prop := -2 ^ 63 ≤ z ∧ z ≤ 2 ^ 63 - 1

instance (z : Int) : Decidable (Fits z) := inferInstanceAs (Decidable (_ ∧ _))

/-! ## Digits -/

theorem isDigit_iff {c : Char} : c.isDigit = true ↔ '0' ≤ c ∧ c ≤ '9' := Char.isDigit_iff_toNat

/-- Reading digits from the left, ten times what came before and the next one, gives each of them its place. -/
theorem ofDigitChars_eq (ds : Text) (n : Nat) : Nat.ofDigitChars 10 ds n = 10 ^ ds.length * n + ofDigits ds := by
  induction ds generalizing n with
  | nil => simp [ofDigits]
  | cons d ds ih =>
    have hplace : ofDigits (d :: ds) = ofDigits ds + 10 ^ ds.length * (d.toNat - '0'.toNat) := by
      rw [ofDigits, List.map_cons, Nat.ofDigits_reverse_cons, List.length_map]
      rfl
    rw [Nat.ofDigitChars_cons, ih, hplace, List.length_cons, Nat.pow_succ, Nat.mul_add]
    rw [Nat.mul_assoc, Nat.add_assoc, Nat.add_comm (ofDigits ds)]

theorem magnitude?_eq_some_iff {ds : Text} {n : Nat} : magnitude? ds = some n ↔ IsDigits ds ∧ n = ofDigits ds := by
  have hdigits : ds ≠ [] ∧ ds.all Char.isDigit = true ↔ IsDigits ds := by
    simp only [IsDigits, List.all_eq_true, isDigit_iff]
  have hvalue : Nat.ofDigitChars 10 ds 0 = ofDigits ds := by
    rw [ofDigitChars_eq, Nat.mul_zero, Nat.zero_add]
  rw [magnitude?, hvalue]
  by_cases h : IsDigits ds
  · rw [if_pos (hdigits.mpr h), Option.some.injEq, eq_comm]
    exact (and_iff_right h).symm
  · rw [if_neg (mt hdigits.mp h)]
    exact iff_of_false (by simp) fun h' => h h'.1

/-- Digits behind a sign, or behind none, stand for what the sign makes of their number. -/
theorem map_magnitude?_eq_some_iff {ds : Text} {sign : Nat → Int} {z : Int} :
    (magnitude? ds).map sign = some z ↔ IsDigits ds ∧ z = sign (ofDigits ds) := by
  rw [Option.map_eq_some_iff]
  constructor
  · rintro ⟨n, hn, rfl⟩
    obtain ⟨hds, rfl⟩ := magnitude?_eq_some_iff.mp hn
    exact ⟨hds, rfl⟩
  · rintro ⟨hds, rfl⟩
    exact ⟨_, magnitude?_eq_some_iff.mpr ⟨hds, rfl⟩, rfl⟩

/-! ## Numerals -/

/-- No digit is a sign. -/
theorem IsDigits.head?_ne {ds : Text} (h : IsDigits ds) {c : Char} (hc : c = '+' ∨ c = '-') : ds.head? ≠ some c := by
  intro hhead
  have hdigit := h.2 c (List.mem_of_mem_head? hhead)
  rcases hc with rfl | rfl
  · exact absurd hdigit (by decide)
  · exact absurd hdigit (by decide)

theorem integer?_eq_some_iff {t : Text} {z : Int} : integer? t = some z ↔ StandsFor t z := by
  constructor
  · intro h
    unfold integer? at h
    split at h
    · obtain ⟨hds, rfl⟩ := map_magnitude?_eq_some_iff.mp h
      exact StandsFor.plus hds
    · obtain ⟨hds, rfl⟩ := map_magnitude?_eq_some_iff.mp h
      exact StandsFor.minus hds
    · obtain ⟨hds, rfl⟩ := map_magnitude?_eq_some_iff.mp h
      exact StandsFor.digits hds
  · intro h
    cases h with
    | plus hds => exact map_magnitude?_eq_some_iff.mpr ⟨hds, rfl⟩
    | minus hds => exact map_magnitude?_eq_some_iff.mpr ⟨hds, rfl⟩
    | digits hds =>
      unfold integer?
      split
      · exact absurd rfl (hds.head?_ne (Or.inl rfl))
      · exact absurd rfl (hds.head?_ne (Or.inr rfl))
      · exact map_magnitude?_eq_some_iff.mpr ⟨hds, rfl⟩

/-- A numeral stands for one integer only. -/
theorem StandsFor.unique {t : Text} {z z' : Int} (h : StandsFor t z) (h' : StandsFor t z') : z = z' := by
  rw [← integer?_eq_some_iff] at h h'
  exact Option.some.inj (h.symm.trans h')

/-- A value is an integer that fits. -/
theorem fits_toInt (v : Int64) : Fits v.toInt := ⟨v.le_toInt, Int.le_sub_one_of_lt v.toInt_lt⟩

theorem toInt_ofInt {z : Int} (h : Fits z) : (Int64.ofInt z).toInt = z :=
  Int64.toInt_ofInt_of_le h.1 (Int.lt_of_le_sub_one h.2)

/-- Reading gives the value that the numeral stands for. -/
theorem read?_eq_some_iff {t : Text} {v : Int64} : read? t = some v ↔ StandsFor t v.toInt := by
  rw [read?, Option.bind_eq_some_iff]
  constructor
  · rintro ⟨z, hz, hv⟩
    split at hv
    · next hfits =>
      cases hv
      rw [toInt_ofInt hfits]
      exact integer?_eq_some_iff.mp hz
    · cases hv
  · intro h
    refine ⟨v.toInt, integer?_eq_some_iff.mpr h, ?_⟩
    exact (if_pos (fits_toInt v)).trans (congrArg some (Int64.ofInt_toInt v))

/-- Reading gives nothing when the text stands for no integer, or for one that does not fit. -/
theorem read?_eq_none_iff {t : Text} : read? t = none ↔ ∀ z, StandsFor t z → ¬ Fits z := by
  constructor
  · intro h z hz hfits
    have hread : read? t = some (Int64.ofInt z) := by
      rw [read?_eq_some_iff, toInt_ofInt hfits]
      exact hz
    rw [h] at hread
    cases hread
  · intro h
    cases hread : read? t with
    | none => rfl
    | some v => exact absurd (fits_toInt v) (h _ (read?_eq_some_iff.mp hread))

end ErrnoBindings.Numeral
