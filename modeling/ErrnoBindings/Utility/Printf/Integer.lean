import ErrnoBindings.CLiteral.Reader
import ErrnoBindings.Utility.Escape
import ErrnoBindings.Utility.Printf.Layout

/-!
# Integers for printing

An argument is read as an integer constant of C: blanks, a sign, and digits, which are octal behind a zero and
hexadecimal behind a zero and an x. What stands behind the digits is left over. The number is then fitted into 64
bits, signed or unsigned as the conversion wants it, and one that does not fit becomes the nearest that does.
-/

namespace ErrnoBindings.Utility.Printf

/-- The blanks that may stand before a number. -/
def isNumberBlank (c : Char) : Bool := c == ' ' || decide (9 ≤ c.toNat ∧ c.toNat ≤ 13)

/-- The value of a decimal digit. -/
def decimalDigit? (c : Char) : Option Nat := if c.isDigit then some (c.toNat - '0'.toNat) else none

/-- Reads the digits at the front of a text, if there is one. -/
def magnitude? (digit? : Char → Option Nat) (base : Nat) (t : Text) : Option (Nat × Text) :=
  match Escape.takeDigits digit? base t.length none t with
  | (some n, rest) => some (n, rest)
  | (none, _) => none

/-- Reads a number without a sign off the front of a text. A zero and an x that no digit follows are a zero, and an
x left over. -/
def unsigned? (t : Text) : Option (Nat × Text) :=
  match t with
  | '0' :: x :: rest =>
    match if x = 'x' ∨ x = 'X' then magnitude? Escape.hexDigit? 16 rest else none with
    | some found => some found
    | none => magnitude? CLiteral.octalDigit? 8 t
  | '0' :: rest => some (0, rest)
  | _ => magnitude? decimalDigit? 10 t

/-- What was read off the front of an argument. -/
structure Scanned where
  /-- whether there is a minus sign -/
  negative : Bool
  /-- the magnitude -/
  magnitude : Nat
  /-- what is left over -/
  rest : Text
  deriving DecidableEq, Repr

/-- Reads an integer off the front of a text, if there is one. -/
def scan? (t : Text) : Option Scanned :=
  match t.dropWhile isNumberBlank with
  | '-' :: ds => (unsigned? ds).map fun found => ⟨true, found.1, found.2⟩
  | '+' :: ds => (unsigned? ds).map fun found => ⟨false, found.1, found.2⟩
  | ds => (unsigned? ds).map fun found => ⟨false, found.1, found.2⟩

/-- A number read from an argument, and whether the argument was nothing but a number that fits. -/
structure Reading (α : Type) where
  /-- the number -/
  value : α
  /-- whether the argument was fine -/
  fine : Bool
  deriving DecidableEq, Repr

/-- The signed integer nearest to a number. -/
def Scanned.signed (s : Scanned) : Reading Int :=
  let limit : Nat := Nat.pow 2 63
  if s.negative then
    if s.magnitude ≤ limit then ⟨-(s.magnitude : Int), s.rest = []⟩ else ⟨-(limit : Int), false⟩
  else if s.magnitude < limit then ⟨s.magnitude, s.rest = []⟩ else ⟨(limit : Int) - 1, false⟩

/-- The unsigned integer nearest to a number; a negative one is counted back from the greatest. -/
def Scanned.unsigned (s : Scanned) : Reading Nat :=
  let limit : Nat := Nat.pow 2 64
  if limit ≤ s.magnitude then ⟨limit - 1, false⟩
  else if s.negative then ⟨(limit - s.magnitude) % limit, s.rest = []⟩
  else ⟨s.magnitude, s.rest = []⟩

/-- The code of the character behind a quote, if an argument begins with a quote. With nothing behind it, only the
shell takes the quote for one. -/
def quoted? (inShell : Bool) : Text → Option Nat
  | q :: rest =>
    if q = '"' ∨ q = '\x27' then
      match rest with
      | c :: _ => some c.toNat
      | [] => if inShell then some 0 else none
    else none
  | [] => none

/-- An argument as a number: the code of a quoted character, or what it reads as. An empty argument is zero. -/
def readNumber {α : Type} (inShell : Bool) (ofCode : Nat → α) (zero : α) (ofScanned : Scanned → Reading α)
    (t : Text) : Reading α :=
  match quoted? inShell t with
  | some code => ⟨ofCode code, true⟩
  | none =>
    match scan? t with
    | some s => ofScanned s
    | none => ⟨zero, t = []⟩

/-- An argument as a signed integer. -/
def readSigned (inShell : Bool) : Text → Reading Int := readNumber inShell (fun n => (n : Int)) 0 Scanned.signed

/-- An argument as an unsigned integer. -/
def readUnsigned (inShell : Bool) : Text → Reading Nat := readNumber inShell id 0 Scanned.unsigned

/-! ## Printing -/

/-- The digits of a number with at least as many of them as the precision wants. With a precision of zero, zero has
none. -/
def Layout.digits (l : Layout) (base : Nat) (capital : Bool) (n : Nat) : Text :=
  let shape (c : Char) : Char := if capital then c.toUpper else c
  let ds := if n = 0 ∧ l.precision = some 0 then [] else (Nat.toDigits base n).map shape
  List.replicate (l.precision.getD 0 - ds.length) '0' ++ ds

/-- Whether an integer is filled up with zeros. A precision says how many digits there are, and leaves the rest to
spaces. -/
def Layout.zeros (l : Layout) : Bool := l.zero && l.precision.isNone

/-- A signed integer in decimal. -/
def Layout.signed (l : Layout) (v : Int) : Text :=
  l.number l.zeros (l.sign (decide (v < 0))) (l.digits 10 false v.natAbs)

/-- An unsigned integer in decimal. -/
def Layout.unsigned (l : Layout) (n : Nat) : Text := l.number l.zeros [] (l.digits 10 false n)

/-- An unsigned integer in octal. The alternate form has a zero in front. -/
def Layout.octal (l : Layout) (n : Nat) : Text :=
  let ds := l.digits 8 false n
  l.number l.zeros [] (if l.alternate ∧ ds.head? ≠ some '0' then '0' :: ds else ds)

/-- An unsigned integer in hexadecimal. The alternate form of a number other than zero has a mark in front. -/
def Layout.hexadecimal (l : Layout) (capital : Bool) (n : Nat) : Text :=
  let mark := if l.alternate ∧ n ≠ 0 then (if capital then ['0', 'X'] else ['0', 'x']) else []
  l.number l.zeros mark (l.digits 16 capital n)

end ErrnoBindings.Utility.Printf
