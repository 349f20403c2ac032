import ErrnoBindings.Text.Numeral
import ErrnoBindings.Utility.Printf.Integer

/-!
# Floating-point numbers for printing

An argument is read as a decimal or hexadecimal number, exactly; it is rounded once, to the nearest number of a
binary format, of two that are equally near the even one; and what is printed is that number, rounded once more to
as many decimal places as are wanted. Between the two roundings a finite number is a natural number times a power
of two, so that all of it is arithmetic on natural numbers.

The program has a format with 64 bits of precision, and the shell's own `printf` one with 53 (`Precision`).
-/

namespace ErrnoBindings.Utility.Printf

/-- A binary format. -/
structure Precision where
  /-- the bits of a significand -/
  bits : Nat
  /-- the least exponent of two that a significand is scaled by -/
  least : Int
  /-- the exponent of two that every number stays below -/
  bound : Int
  deriving DecidableEq, Repr

/-- The format of the program. -/
def extended : Precision := ⟨64, -16445, 16384⟩

/-- The format of the shell's own `printf`. -/
def double : Precision := ⟨53, -1074, 1024⟩

/-- A magnitude. -/
inductive Magnitude where
  /-- a significand times a power of two -/
  | finite (significand : Nat) (exponent : Int)
  /-- greater than any number -/
  | infinite
  /-- no number -/
  | notANumber
  deriving DecidableEq, Repr

/-- A floating-point number. -/
structure Floating where
  /-- whether it has a minus sign -/
  negative : Bool
  /-- its magnitude -/
  magnitude : Magnitude
  deriving DecidableEq, Repr

/-! ## Rounding -/

/-- A quotient rounded to the nearest natural number, of two that are equally near to the even one. -/
def roundQuotient (n d : Nat) : Nat :=
  let q := n / d
  let r := n % d
  if 2 * r < d ∨ 2 * r = d ∧ q % 2 = 0 then q else q + 1

/-- A quotient times a power of a base, as a quotient. -/
def scale (base : Nat) (n d : Nat) (e : Int) : Nat × Nat :=
  if 0 ≤ e then (n * Nat.pow base e.toNat, d) else (n, d * Nat.pow base (-e).toNat)

/-- The nearest number of a format to a quotient, and whether nothing was lost at the ends of the format's range. -/
def Precision.round (p : Precision) (n d : Nat) : Reading Magnitude :=
  if n = 0 then ⟨.finite 0 0, true⟩
  else
    -- the exponent that gives the significand all its bits, unless the format has none so small
    let guess : Int := (Nat.log2 n : Int) - (Nat.log2 d : Int) - (p.bits : Int)
    let short := scale 2 n d (-(guess + 1))
    let full := if short.1 / short.2 < Nat.pow 2 (p.bits - 1) then guess else guess + 1
    let e := max full p.least
    let (n', d') := scale 2 n d (-e)
    let m := roundQuotient n' d'
    let exact := m * d' == n'
    if p.bound ≤ (Nat.log2 m : Int) + e then ⟨.infinite, false⟩
    else ⟨.finite m e, exact || decide (Nat.pow 2 (p.bits - 1) ≤ m)⟩

/-! ## Reading -/

/-- Digits with a point among them: the number without the point, how many digits stand behind the point, and the
rest. None if there is no digit. -/
def pointed? (digit? : Char → Option Nat) (base : Nat) (t : Text) : Option (Nat × Nat × Text) :=
  let whole := t.takeWhile fun c => (digit? c).isSome
  let behind := t.dropWhile fun c => (digit? c).isSome
  let value (ds : Text) : Nat := ds.foldl (fun n c => n * base + (digit? c).getD 0) 0
  match behind with
  | '.' :: more =>
    let places := more.takeWhile fun c => (digit? c).isSome
    if whole = [] ∧ places = [] then none
    else some (value (whole ++ places), places.length, more.dropWhile fun c => (digit? c).isSome)
  | _ => if whole = [] then none else some (value whole, 0, behind)

/-- An exponent behind its letter, and the rest; zero, and everything, if there is none. -/
def exponent (small capital : Char) (t : Text) : Int × Text :=
  match t with
  | c :: rest =>
    if c = small ∨ c = capital then
      let (sign, ds) : Int × Text :=
        match rest with
        | '-' :: ds => (-1, ds)
        | '+' :: ds => (1, ds)
        | ds => (1, ds)
      match magnitude? decimalDigit? 10 ds with
      | some (n, rest') => (sign * n, rest')
      | none => (0, t)
    else (0, t)
  | [] => (0, [])

/-- The greatest exponent that is worked out. Beyond it every number is out of range, however many digits it has. -/
def farthest : Int := 20000

/-- A number times a power of a base, rounded. -/
def Precision.scaled (p : Precision) (n base : Nat) (e : Int) : Reading Magnitude :=
  if n = 0 then ⟨.finite 0 0, true⟩
  else if farthest < e then ⟨.infinite, false⟩
  else if e < -farthest - (Nat.log2 n : Int) then ⟨.finite 0 0, false⟩
  else
    let (n', d') := scale base n 1 e
    p.round n' d'

/-- Whether a text begins with a word, in whatever letters; and what stands behind it. -/
def behindWord? (word t : Text) : Option Text :=
  if (t.take word.length).map Char.toLower = word then some (t.drop word.length) else none

/-- What stands behind a note in brackets, if there is one. -/
def behindNote (t : Text) : Text :=
  match t with
  | '(' :: rest =>
    match rest.dropWhile fun c => c.isAlphanum || c == '_' with
    | ')' :: more => more
    | _ => t
  | _ => t

/-- Reads a magnitude off the front of a text, if there is one, and gives the rest. -/
def Precision.magnitude? (p : Precision) (t : Text) : Option (Reading Magnitude × Text) :=
  match behindWord? "infinity".toList t, behindWord? "inf".toList t, behindWord? "nan".toList t with
  | some rest, _, _ => some (⟨.infinite, true⟩, rest)
  | none, some rest, _ => some (⟨.infinite, true⟩, rest)
  | none, none, some rest => some (⟨.notANumber, true⟩, behindNote rest)
  | none, none, none =>
    let hex :=
      match behindWord? "0x".toList t with
      | some ds => pointed? Escape.hexDigit? 16 ds
      | none => none
    match hex with
    | some (n, places, rest) =>
      let (e, rest') := exponent 'p' 'P' rest
      some (p.scaled n 2 (e - 4 * places), rest')
    | none =>
      match pointed? decimalDigit? 10 t with
      | some (n, places, rest) =>
        let (e, rest') := exponent 'e' 'E' rest
        some (p.scaled n 10 (e - places), rest')
      | none => none

/-- An argument as a floating-point number. -/
def readFloating (inShell : Bool) (p : Precision) (t : Text) : Reading Floating :=
  match quoted? inShell t with
  | some code => ⟨⟨false, .finite code 0⟩, true⟩
  | none =>
    let (negative, ds) : Bool × Text :=
      match t.dropWhile isNumberBlank with
      | '-' :: ds => (true, ds)
      | '+' :: ds => (false, ds)
      | ds => (false, ds)
    match p.magnitude? ds with
    | some (r, rest) => ⟨⟨negative, r.value⟩, r.fine && decide (rest = [])⟩
    | none => ⟨⟨false, .finite 0 0⟩, t = []⟩

/-! ## Printing -/

/-- The digits of a number with so many places, and a point before the places if there are any, or if one is
wanted. -/
def withPoint (point : Bool) (places n : Nat) : Text :=
  let ds := decimal n
  let ds := List.replicate (places + 1 - ds.length) '0' ++ ds
  let whole := ds.take (ds.length - places)
  if places = 0 then whole ++ (if point then ['.'] else []) else whole ++ '.' :: ds.drop (ds.length - places)

/-- A magnitude with so many places. -/
def positional (point : Bool) (places m : Nat) (e : Int) : Text :=
  let (n, d) := scale 2 (m * Nat.pow 10 places) 1 e
  withPoint point places (roundQuotient n d)

/-- A quotient over a power of ten, rounded to a natural number. -/
def overTen (n d : Nat) (k : Int) : Nat :=
  let (n', d') := scale 10 n d (-k)
  roundQuotient n' d'

/-- The significant digits of a quotient, one more than there are places, as a natural number, and its decimal
exponent. -/
def significant (places n d : Nat) : Nat × Int :=
  if n = 0 then (0, 0)
  else
    -- a decimal exponent that is right or one too small
    let guess : Int := ((Nat.log2 n : Int) - (Nat.log2 d : Int)) * 30103 / 100000 - 1
    let attempt (k : Int) : Option (Nat × Int) :=
      let m := overTen n d (k - places)
      if Nat.pow 10 places ≤ m ∧ m < Nat.pow 10 (places + 1) then some (m, k) else none
    ((attempt guess).or ((attempt (guess + 1)).or (attempt (guess + 2)))).getD (Nat.pow 10 places, guess + 3)

/-- A decimal exponent in at least two digits. -/
def exponentText (capital : Bool) (k : Int) : Text :=
  let ds := decimal k.natAbs
  (if capital then 'E' else 'e') :: (if k < 0 then '-' else '+') :: (List.replicate (2 - ds.length) '0' ++ ds)

/-- A magnitude with one digit before the point and an exponent. -/
def scientific (capital point : Bool) (places m : Nat) (e : Int) : Text :=
  let (n, d) := scale 2 m 1 e
  let (s, k) := significant places n d
  withPoint point places s ++ exponentText capital k

/-- Takes away zeros at the end of the places, and the point if no place is left. -/
def trimPlaces (t : Text) : Text :=
  if t.elem '.' then
    match (t.reverse.dropWhile (· == '0')) with
    | '.' :: rest => rest.reverse
    | rest => rest.reverse
  else t

/-- A magnitude with so many significant digits, in whichever form is shorter. -/
def general (capital alternate : Bool) (digits m : Nat) (e : Int) : Text :=
  let digits := max digits 1
  let (n, d) := scale 2 m 1 e
  let (s, k) := significant (digits - 1) n d
  if -4 ≤ k ∧ k < digits then
    let t := positional alternate (((digits : Int) - 1 - k).toNat) m e
    if alternate then t else trimPlaces t
  else
    -- a number that comes to the first power of ten past the positional form by rounding shows none of its places
    let places := if k = digits ∧ n < d * Nat.pow 10 digits then 0 else digits - 1
    let t := withPoint alternate places (s / Nat.pow 10 (digits - 1 - places))
    (if alternate then t else trimPlaces t) ++ exponentText capital k

/-- A magnitude in hexadecimal, with one digit before the point. A precision of 64 bits leaves four of them for that
digit, and one of 53 bits a single one. The digit is zero where the number is too small for the least exponent. -/
def hexadecimalFloat (p : Precision) (capital alternate : Bool) (places : Option Nat) (m : Nat) (e : Int) : Text :=
  let below := (p.bits - 1) / 4 * 4
  -- as many bits of the significand are put to use as the least exponent allows
  let shift := if m = 0 then 0 else (p.bits - 1 - Nat.log2 m).min (e - p.least).toNat
  -- a significand that was rounded up may have a bit too many, the last of which is zero
  let excess := Nat.log2 m + 1 - p.bits
  let m' := m * Nat.pow 2 shift / Nat.pow 2 excess
  let x : Int := if m = 0 then 0 else e - shift + excess + below
  let kept := (places.getD (below / 4)).min (below / 4)
  let rounded := roundQuotient m' (Nat.pow 16 (below / 4 - kept))
  let ds := Escape.hexDigits capital (kept + 1) rounded
  let whole := ds.take (ds.length - kept)
  let behind := ds.drop (ds.length - kept)
  let behind :=
    match places with
    | none => (behind.reverse.dropWhile (· == '0')).reverse
    | some wanted => behind ++ List.replicate (wanted - kept) '0'
  whole ++ (if behind = [] ∧ !alternate then [] else '.' :: behind) ++
    (if capital then 'P' else 'p') :: (if x < 0 then '-' else '+') :: decimal x.natAbs

/-- Lays out a floating-point number for the letter of a conversion. -/
def Layout.floating (l : Layout) (p : Precision) (letter : Char) (x : Floating) : Text :=
  let capital := letter.isUpper
  let sign := l.sign x.negative
  match x.magnitude with
  | .infinite => l.pad (sign ++ (if capital then "INF" else "inf").toList)
  | .notANumber => l.pad (sign ++ (if capital then "NAN" else "nan").toList)
  | .finite m e =>
    let places := l.precision.getD 6
    match letter.toLower with
    | 'f' => l.number l.zero sign (positional l.alternate places m e)
    | 'e' => l.number l.zero sign (scientific capital l.alternate places m e)
    | 'g' => l.number l.zero sign (general capital l.alternate places m e)
    | _ =>
      l.number l.zero (sign ++ (if capital then ['0', 'X'] else ['0', 'x']))
        (hexadecimalFloat p capital l.alternate l.precision m e)

end ErrnoBindings.Utility.Printf
