import ErrnoBindings.Text.Basic

/-!
# How a conversion lays out its text

A conversion has flags, a least width and perhaps a precision. What it prints is filled up to its width: with
spaces in front, with spaces behind, or — for numbers — with zeros between the sign and the digits.
-/

namespace ErrnoBindings.Utility.Printf

/-- How a conversion is to be laid out. -/
structure Layout where
  /-- spaces go behind -/
  left : Bool
  /-- a number that is not negative has a plus sign -/
  plus : Bool
  /-- a number that is not negative has a space for its sign -/
  space : Bool
  /-- the alternate form -/
  alternate : Bool
  /-- zeros go between the sign and the digits -/
  zero : Bool
  /-- the least width -/
  width : Nat
  /-- the precision, if there is one -/
  precision : Option Nat
  deriving DecidableEq, Repr

namespace Layout

/-- Fills a text up to the width with spaces. -/
def pad (l : Layout) (t : Text) : Text :=
  let spaces := List.replicate (l.width - t.length) ' '
  if l.left then t ++ spaces else spaces ++ t

/-- The sign of a number. -/
def sign (l : Layout) (negative : Bool) : Text :=
  if negative then ['-'] else if l.plus then ['+'] else if l.space then [' '] else []

/-- Lays out a number: its sign and mark, and its digits. -/
def number (l : Layout) (zeros : Bool) (mark digits : Text) : Text :=
  if zeros && !l.left then mark ++ List.replicate (l.width - mark.length - digits.length) '0' ++ digits
  else l.pad (mark ++ digits)

end Layout

end ErrnoBindings.Utility.Printf
