import ErrnoBindings.Text.Basic

/-!
# Blank characters

What counts as white space decides where a word of a listing ends. Here it is the `White_Space` property of
Unicode: twenty-five characters in ten ranges. Core's own `Char.isWhitespace` knows four of them only;
`isBlank_of_isWhitespace` says that nothing of that smaller class is missed.
-/

namespace ErrnoBindings

/-- The code points with the `White_Space` property, as closed ranges in ascending order. -/
def blankRanges : List (Nat × Nat) :=
  [(0x09, 0x0D), (0x20, 0x20), (0x85, 0x85), (0xA0, 0xA0), (0x1680, 0x1680), (0x2000, 0x200A),
    (0x2028, 0x2029), (0x202F, 0x202F), (0x205F, 0x205F), (0x3000, 0x3000)]

-- twenty-five characters, and no two ranges meet
example : blankRanges.foldl (fun n r => n + (r.2 + 1 - r.1)) 0 = 25 := rfl
example : blankRanges.Pairwise (fun r s => r.2 < s.1) := by decide

/-- A character is blank when it has the `White_Space` property. -/
def isBlank (c : Char) : Bool :=
  blankRanges.any fun r => decide (r.1 ≤ c.toNat) && decide (c.toNat ≤ r.2)

/-- The characters that core calls white space are blank. -/
theorem isBlank_of_isWhitespace {c : Char} (h : c.isWhitespace = true) : isBlank c = true := by
  simp only [Char.isWhitespace, Bool.or_eq_true, decide_eq_true_eq] at h
  rcases h with ((rfl | rfl) | rfl) | rfl <;> decide

@[simp] theorem isBlank_space : isBlank ' ' = true := by decide

@[simp] theorem isBlank_newline : isBlank '\n' = true := by decide

@[simp] theorem isBlank_return : isBlank '\r' = true := by decide

end ErrnoBindings
