import ErrnoBindings.Text.Basic

/-!
# Decimal numerals

The value of a row is a signed 64-bit integer in decimal: one optional sign, then one or more ASCII digits, with
as many leading zeros as one likes, as long as the value fits. `Numeral.read?` reads that form and
`Numeral.print` writes the shortest one without a plus sign; `Numeral.read?_print` says that every value, the two
extreme ones included, is read back.
-/

namespace ErrnoBindings

/-- A natural number in decimal. -/
def decimal (n : Nat) : Text := Nat.toDigits 10 n

theorem decimal_ne_nil (n : Nat) : decimal n ≠ [] := Nat.toDigits_ne_nil

theorem isDigit_of_mem_decimal {n : Nat} {c : Char} (h : c ∈ decimal n) : c.isDigit = true :=
  Nat.isDigit_of_mem_toDigits (by decide) (by decide) h

/-- The numeral of a number above zero starts with no zero. -/
theorem head?_decimal {n : Nat} (h : 0 < n) : (decimal n).head? ≠ some '0' := by
  have hdigit : ∀ d < 10, 0 < d → [Nat.digitChar d].head? ≠ some '0' := by decide
  induction n using Nat.strongRecOn with
  | _ n ih =>
    rw [decimal, Nat.toDigits_eq_if (by decide)]
    split
    · next hn => exact hdigit n hn h
    · next hn =>
      have hq : 0 < n / 10 := Nat.div_pos (by omega) (by decide)
      rw [List.head?_append, Option.or_of_isSome]
      · exact ih (n / 10) (by omega) hq
      · simp [Nat.toDigits_ne_nil]

namespace Numeral

/-- The number that one or more digits stand for. -/
def magnitude? (ds : Text) : Option Nat :=
  if ds ≠ [] ∧ ds.all Char.isDigit = true then some (Nat.ofDigitChars 10 ds 0) else none

/-- The integer that a numeral stands for, whatever its size. -/
def integer? : Text → Option Int
  | '+' :: ds => (magnitude? ds).map fun n : Nat => (n : Int)
  | '-' :: ds => (magnitude? ds).map fun n : Nat => -(n : Int)
  | ds => (magnitude? ds).map fun n : Nat => (n : Int)

/-- The value of a numeral, if it is one and fits in 64 bits. -/
def read? (t : Text) : Option Int64 :=
  (integer? t).bind fun v =>
    if -9223372036854775808 ≤ v ∧ v ≤ 9223372036854775807 then some (Int64.ofInt v) else none

/-- The numeral of a value: its digits, after a minus sign when it is negative. -/
def print (v : Int64) : Text :=
  if v.toInt < 0 then '-' :: decimal v.toInt.natAbs else decimal v.toInt.natAbs

@[simp] theorem magnitude?_decimal (n : Nat) : magnitude? (decimal n) = some n := by
  have hall : (decimal n).all Char.isDigit = true :=
    List.all_eq_true.2 fun _ hc => isDigit_of_mem_decimal hc
  rw [magnitude?, if_pos ⟨decimal_ne_nil n, hall⟩, decimal, Nat.ofDigitChars_ten_toDigits]

/-- Digits have no sign in front of them. -/
theorem integer?_decimal (n : Nat) : integer? (decimal n) = some (n : Int) := by
  unfold integer?
  split
  · next ds h =>
    have : ('+' : Char).isDigit = true := isDigit_of_mem_decimal (n := n) (by simp [h])
    exact absurd this (by decide)
  · next ds h =>
    have : ('-' : Char).isDigit = true := isDigit_of_mem_decimal (n := n) (by simp [h])
    exact absurd this (by decide)
  · simp

theorem integer?_print (v : Int64) : integer? (print v) = some v.toInt := by
  unfold print
  split
  · next h =>
    rw [integer?, magnitude?_decimal, Option.map_some]
    exact congrArg some (by omega)
  · next h =>
    rw [integer?_decimal]
    exact congrArg some (by omega)

/-- Every value is read back from its numeral. -/
theorem read?_print (v : Int64) : read? (print v) = some v := by
  rw [read?, integer?_print, Option.bind_some, if_pos, Int64.ofInt_toInt]
  have hlt := v.toInt_lt
  exact ⟨v.le_toInt, by omega⟩

end Numeral

end ErrnoBindings
