import ErrnoBindings.Utility.Printf.Floating

/-!
# Formats and their directives

A format is plain text, escapes, and directives. A directive begins with a percent sign: flags, a width, a
precision behind a point, and the letter of a conversion; a star in place of a width or a precision takes it from
the arguments. Two conversions of the program stand by themselves, without any of these.

`Piece.ofFormat` takes a format apart. Nothing is refused here: a directive keeps whatever letter it has, and the
one who uses it knows which letters there are.
-/

namespace ErrnoBindings.Utility.Printf

/-- A width or a precision in a directive. -/
inductive Amount where
  /-- it is not given -/
  | absent
  /-- it is a number -/
  | number (n : Nat)
  /-- it is the next argument -/
  | argument
  deriving DecidableEq, Repr

/-- A directive. -/
structure Directive where
  /-- the flags -/
  flags : Text
  /-- the least width -/
  width : Amount
  /-- the precision; a point alone makes it zero -/
  precision : Amount
  /-- the letter of the conversion, unless the format ends before it -/
  letter : Option Char
  deriving DecidableEq, Repr

/-- Which of the two that print formats does so. -/
inductive Manner where
  /-- the program -/
  | program
  /-- the shell -/
  | shell
  deriving DecidableEq, Repr

namespace Manner

/-- Whether it is the shell. -/
def inShell : Manner → Bool
  | program => false
  | shell => true

/-- The characters that are flags. -/
def flags : Manner → Text
  | program => "-+ #0\x27I".toList
  | shell => "#-+ 0".toList

/-- The characters before a letter that say how long an argument is, and mean nothing here. -/
def lengths : Manner → Text
  | program => "lLhjtz".toList
  | shell => []

/-- How escapes in a format are read. -/
def escapes : Manner → Escape.Dialect
  | program => Escape.formatting
  | shell => Escape.shellFormatting

end Manner

namespace Directive

/-- Reads a width or a precision off the front of a text. -/
def readAmount : Text → Amount × Text
  | '*' :: rest => (.argument, rest)
  | t =>
    let ds := t.takeWhile Char.isDigit
    (if ds = [] then .absent else .number (Nat.ofDigitChars 10 ds 0), t.dropWhile Char.isDigit)

/-- Reads a precision off the front of a text. -/
def readPrecision : Text → Amount × Text
  | '.' :: rest =>
    match readAmount rest with
    | (.absent, rest') => (.number 0, rest')
    | found => found
  | t => (.absent, t)

theorem length_dropWhile_le (p : Char → Bool) (t : Text) : (t.dropWhile p).length ≤ t.length := by
  induction t with
  | nil => exact Nat.le_refl _
  | cons c t ih =>
    rw [List.dropWhile_cons]
    split
    · exact Nat.le_succ_of_le ih
    · exact Nat.le_refl _

theorem length_readAmount_le (t : Text) : (readAmount t).2.length ≤ t.length := by
  unfold readAmount
  split
  · simp
  · exact length_dropWhile_le _ _

theorem length_readPrecision_le (t : Text) : (readPrecision t).2.length ≤ t.length := by
  unfold readPrecision
  split
  · next rest =>
    have h := length_readAmount_le rest
    split
    · next heq =>
      rw [heq] at h
      exact Nat.le_succ_of_le h
    · exact Nat.le_succ_of_le h
  · exact Nat.le_refl _

/-- Reads a directive behind its percent sign, and gives the rest. -/
def read (m : Manner) (t : Text) : Directive × Text :=
  let flags := t.takeWhile fun c => m.flags.elem c
  let (width, behindWidth) := readAmount (t.dropWhile fun c => m.flags.elem c)
  let (precision, behindPrecision) := readPrecision behindWidth
  match behindPrecision.dropWhile fun c => m.lengths.elem c with
  | [] => (⟨flags, width, precision, none⟩, [])
  | c :: rest => (⟨flags, width, precision, some c⟩, rest)

/-- Reading a directive leaves no more than there was. -/
theorem length_read_le (m : Manner) (t : Text) : (read m t).2.length ≤ t.length := by
  have h₁ := length_dropWhile_le (fun c => m.flags.elem c) t
  have h₂ := length_readAmount_le (t.dropWhile fun c => m.flags.elem c)
  have h₃ := length_readPrecision_le (readAmount (t.dropWhile fun c => m.flags.elem c)).2
  have h₄ := length_dropWhile_le (fun c => m.lengths.elem c)
    (readPrecision (readAmount (t.dropWhile fun c => m.flags.elem c)).2).2
  unfold read
  dsimp only
  split
  · simp
  · next heq =>
    rw [heq, List.length_cons] at h₄
    dsimp only
    omega

/-- Whether the directive has a flag. -/
def has (d : Directive) (flag : Char) : Bool := d.flags.elem flag

end Directive

/-- A part of a format. -/
inductive Piece where
  /-- text to print -/
  | text (t : Text)
  /-- an escape that ends everything -/
  | stop
  /-- an escape that is refused -/
  | refused
  /-- a directive -/
  | directive (d : Directive)
  deriving DecidableEq, Repr

namespace Piece

/-- What an escape is in a format. -/
def ofMeaning : Escape.Meaning → Piece
  | .text t => .text t
  | .stop => .stop
  | .refused => .refused

/-- The pieces of a format. -/
def ofFormat (m : Manner) : Text → List Piece
  | [] => []
  | c :: cs =>
    if c = '\\' then
      have := Escape.length_one_le m.escapes cs
      ofMeaning (Escape.one m.escapes cs).1 :: ofFormat m (Escape.one m.escapes cs).2
    else if c = '%' ∧ cs.head? = some '%' then .text ['%'] :: ofFormat m cs.tail
    else if c = '%' then
      have := Directive.length_read_le m cs
      .directive (Directive.read m cs).1 :: ofFormat m (Directive.read m cs).2
    else .text [c] :: ofFormat m cs
termination_by t => t.length
decreasing_by all_goals (simp only [List.length_cons, List.length_tail]; omega)

end Piece

end ErrnoBindings.Utility.Printf
