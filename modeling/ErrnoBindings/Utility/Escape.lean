import ErrnoBindings.CLiteral.Reader
import ErrnoBindings.Utility.Basic

/-!
# Backslash escapes

`echo` and `printf` write some characters as a backslash and what follows it. What is understood behind the
backslash differs from one place to another, and that is the place's `Dialect`: the letters, the form of octal
escapes, whether there are hexadecimal and universal ones, and what becomes of a backslash that begins no escape.

One escape is read by `Escape.one`, which is given what stands behind the backslash and answers with a meaning and
the rest. The escape `\c` ends everything: what stands behind it is not printed, and neither is anything else. A
strict dialect refuses an escape that wants digits and has none.
-/

namespace ErrnoBindings.Utility.Escape

/-- Hexadecimal escapes in a dialect. -/
inductive Hexadecimal where
  /-- there are none -/
  | absent
  /-- there are some, and a lone x is no escape -/
  | lenient
  /-- there are some, and a lone x is refused -/
  | strict
  deriving DecidableEq, Repr

/-- How escapes are read in some place. -/
structure Dialect where
  /-- the letters, and other characters, that stand for a character of their own -/
  letters : Text
  /-- whether there is an escape that ends everything -/
  stops : Bool
  /-- whether a leading zero comes on top of three octal digits -/
  leadingZero : Bool
  /-- hexadecimal escapes -/
  hexadecimal : Hexadecimal
  /-- whether there are universal character names, of four and of eight digits -/
  universal : Bool
  /-- whether a character behind a backslash that begins no escape is read again, for what it is -/
  rereads : Bool
  deriving DecidableEq, Repr

/-- The escapes of the program `echo`. -/
def echoing : Dialect := ⟨"abefnrtv\\".toList, true, true, .lenient, false, false⟩

/-- The escapes in the format of the program `printf`. -/
def formatting : Dialect := ⟨"\"abefnrtv\\".toList, true, false, .strict, true, false⟩

/-- The escapes in an argument that the program `printf` reads them in. -/
def quoting : Dialect := { formatting with leadingZero := true }

/-- The escapes in what the shell itself echoes, and in the arguments that its own `printf` reads them in. -/
def shellEchoing : Dialect := ⟨"abefnrtv\\".toList, true, true, .absent, false, false⟩

/-- The escapes in the format of the shell's own `printf`. -/
def shellFormatting : Dialect := ⟨"abefnrtv\\".toList, false, false, .absent, false, true⟩

/-- What an escape means. -/
inductive Meaning where
  /-- characters -/
  | text (t : Text)
  /-- the end of everything -/
  | stop
  /-- nothing; the escape is refused -/
  | refused
  deriving DecidableEq, Repr

/-- What a letter behind a backslash stands for: a control character, or else itself. -/
def control : Char → Char
  | 'a' => Char.ofNat 7
  | 'b' => Char.ofNat 8
  | 't' => Char.ofNat 9
  | 'n' => Char.ofNat 10
  | 'v' => Char.ofNat 11
  | 'f' => Char.ofNat 12
  | 'r' => Char.ofNat 13
  | 'e' => Char.ofNat 27
  | c => c

/-- The value of a hexadecimal digit. -/
def hexDigit? (c : Char) : Option Nat :=
  if '0' ≤ c ∧ c ≤ '9' then some (c.toNat - '0'.toNat)
  else if 'a' ≤ c ∧ c ≤ 'f' then some (c.toNat - 'a'.toNat + 10)
  else if 'A' ≤ c ∧ c ≤ 'F' then some (c.toNat - 'A'.toNat + 10)
  else none

/-- The octet with a value, as a character. -/
def octet (n : Nat) : Char := Char.ofNat (n % 256)

/-- Reads at most so many digits: the value so far grows by each, and there is none before the first. -/
def takeDigits (digit? : Char → Option Nat) (base : Nat) : Nat → Option Nat → Text → Option Nat × Text
  | 0, value, cs => (value, cs)
  | _ + 1, value, [] => (value, [])
  | n + 1, value, c :: cs =>
    match digit? c with
    | some v => takeDigits digit? base n (some (value.getD 0 * base + v)) cs
    | none => (value, c :: cs)

theorem length_takeDigits_le (digit? : Char → Option Nat) (base n : Nat) (value : Option Nat) (cs : Text) :
    (takeDigits digit? base n value cs).2.length ≤ cs.length := by
  induction n generalizing value cs with
  | zero => exact Nat.le_refl _
  | succ n ih =>
    cases cs with
    | nil => exact Nat.le_refl _
    | cons c cs =>
      rw [takeDigits]
      split
      · exact Nat.le_succ_of_le (ih _ _)
      · exact Nat.le_refl _

/-- A number in so many hexadecimal digits. -/
def hexDigits (capital : Bool) (width n : Nat) : Text :=
  let ds := (Nat.toDigits 16 n).map fun c => if capital then c.toUpper else c
  List.replicate (width - ds.length) '0' ++ ds

/-- Whether a universal character name may have a value: the basic characters and the surrogates have none, but for
three that are not basic. -/
def isUniversal (v : Nat) : Bool :=
  (decide (0x9F < v) || v == 0x24 || v == 0x40 || v == 0x60) && !decide (0xD800 ≤ v ∧ v ≤ 0xDFFF)

/-- A character by its universal name. One that is not ASCII is given by the name itself. -/
def universal (v : Nat) : Meaning :=
  if !isUniversal v then .refused
  else if v < 0x80 then .text [Char.ofNat v]
  else if v < 0x10000 then .text ('\\' :: 'u' :: hexDigits true 4 v)
  else .text ('\\' :: 'U' :: hexDigits true 8 v)

/-- Reads one escape: what stands behind the backslash has a meaning, and leaves a rest. -/
def one (d : Dialect) : Text → Meaning × Text
  | [] => (.text ['\\'], [])
  | c :: rest =>
    let unknown : Meaning × Text := if d.rereads then (.text ['\\'], c :: rest) else (.text ['\\', c], rest)
    let named (width : Nat) : Meaning × Text :=
      match takeDigits hexDigit? 16 width none rest with
      | (some v, rest') => if rest.length = rest'.length + width then (universal v, rest') else (.refused, rest')
      | (none, rest') => (.refused, rest')
    if c = 'c' ∧ d.stops then (.stop, rest)
    else if d.letters.elem c then (.text [control c], rest)
    else if (CLiteral.octalDigit? c).isSome then
      let (v, rest') := takeDigits CLiteral.octalDigit? 8 3 none (if c = '0' ∧ d.leadingZero then rest else c :: rest)
      (.text [octet (v.getD 0)], rest')
    else if c = 'x' ∧ d.hexadecimal ≠ .absent then
      match takeDigits hexDigit? 16 2 none rest with
      | (some v, rest') => (.text [octet v], rest')
      | (none, _) => if d.hexadecimal = .strict then (.refused, rest) else unknown
    else if c = 'u' ∧ d.universal then named 4
    else if c = 'U' ∧ d.universal then named 8
    else unknown

/-- Reading an escape leaves no more than there was. -/
theorem length_one_le (d : Dialect) (cs : Text) : (one d cs).2.length ≤ cs.length := by
  cases cs with
  | nil => exact Nat.le_refl _
  | cons c rest =>
    have hunknown : (if d.rereads then (Meaning.text ['\\'], c :: rest) else (.text ['\\', c], rest)).2.length
        ≤ rest.length + 1 := by
      split <;> simp
    have hnamed (width : Nat) :
        (match takeDigits hexDigit? 16 width none rest with
          | (some v, rest') =>
            if rest.length = rest'.length + width then (universal v, rest') else (.refused, rest')
          | (none, rest') => (Meaning.refused, rest')).2.length ≤ rest.length + 1 := by
      have h := length_takeDigits_le hexDigit? 16 width none rest
      split
      · next heq =>
        rw [heq] at h
        split <;> exact Nat.le_succ_of_le h
      · next heq =>
        rw [heq] at h
        exact Nat.le_succ_of_le h
    rw [one, List.length_cons]
    split
    · simp
    split
    · simp
    split
    · refine Nat.le_trans (length_takeDigits_le _ _ _ _ _) ?_
      split <;> simp
    split
    · have h := length_takeDigits_le hexDigit? 16 2 none rest
      split
      · next heq =>
        rw [heq] at h
        exact Nat.le_succ_of_le h
      · split
        · simp
        · exact hunknown
    split
    · exact hnamed 4
    split
    · exact hnamed 8
    · exact hunknown

/-- How the reading of a text with escapes ended. -/
inductive Close where
  /-- with the text -/
  | atEnd
  /-- with an escape that ends everything -/
  | stopped
  /-- with an escape that is refused -/
  | refused
  deriving DecidableEq, Repr

/-- Reads a text with escapes: what it stands for, and how the reading ended. -/
def read (d : Dialect) : Text → Text × Close
  | [] => ([], .atEnd)
  | c :: cs =>
    if c = '\\' then
      match h : one d cs with
      | (.text t, rest) =>
        have : rest.length ≤ cs.length := by simpa [h] using length_one_le d cs
        (t ++ (read d rest).1, (read d rest).2)
      | (.stop, _) => ([], .stopped)
      | (.refused, _) => ([], .refused)
    else (c :: (read d cs).1, (read d cs).2)
termination_by t => t.length
decreasing_by all_goals (simp only [List.length_cons]; omega)

end ErrnoBindings.Utility.Escape
