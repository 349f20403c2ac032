import ErrnoBindings.CLiteral.Basic
import ErrnoBindings.Utility.Escape

/-!
# Quoting for a shell

A text can be written so that a shell reads it back as one word. One that has nothing special in it stands for
itself. One with an apostrophe, and otherwise nothing but what is the same between double quotes, is put between
double quotes. Anything else is put between single quotes, with each apostrophe taken out of them and each control
character, and each octet that is not ASCII, written as an escape between quotes of the kind that have escapes.
-/

namespace ErrnoBindings.Utility.Quoting

/-- Whether a character is written as an escape. -/
def isEscaped (c : Char) : Bool := CLiteral.isControl c || decide (0x80 ≤ c.toNat)

/-- Whether a character at some place is special in a shell. Braces are so only when they stand alone, and two
characters only in the first place. -/
def isSpecial (first alone : Bool) (c : Char) : Bool :=
  isEscaped c || " !\"$&()*;<=>[^\x60|?\\\x27".toList.elem c || ((c == '#' || c == '~') && first) ||
    ((c == '\x7b' || c == '\x7d') && alone)

/-- Whether a character at some place means the same between double quotes as between single ones. -/
def isCommon (first alone : Bool) (c : Char) : Bool :=
  c.isAlphanum || " \x27%+,-./:]_@".toList.elem c || ((c == '#' || c == '~') && first) ||
    ((c == '\x7b' || c == '\x7d') && alone)

/-- Whether every character passes a test, the first one told apart. -/
def allOf (test : Bool → Bool → Char → Bool) : Text → Bool
  | [] => true
  | [c] => test true true c
  | c :: cs => test true false c && cs.all (test false false)

/-- How a character is written as an escape. -/
def escaped (c : Char) : Text :=
  match c with
  | '\n' => ['\\', 'n']
  | '\t' => ['\\', 't']
  | '\r' => ['\\', 'r']
  | c =>
    if c = Char.ofNat 7 then ['\\', 'a']
    else if c = Char.ofNat 8 then ['\\', 'b']
    else if c = Char.ofNat 11 then ['\\', 'v']
    else if c = Char.ofNat 12 then ['\\', 'f']
    else '\\' :: CLiteral.octal c.toNat

/-- A single quote. -/
def apostrophe : Char := '\x27'

/-- What stands between single quotes; `inEscapes` says whether quotes with escapes are open. -/
def body (inEscapes : Bool) : Text → Text
  | [] => []
  | c :: cs =>
    if isEscaped c then
      (if inEscapes then [] else [apostrophe, '$', apostrophe]) ++ escaped c ++ body true cs
    else if c = apostrophe then [apostrophe, '\\', apostrophe, apostrophe] ++ body false cs
    else (if inEscapes then [apostrophe, apostrophe] else []) ++ c :: body false cs

/-- A text as a word for a shell. -/
def quote (t : Text) : Text :=
  if t ≠ [] ∧ allOf (fun first alone c => !isSpecial first alone c) t then t
  else if t.elem apostrophe && allOf isCommon t then '"' :: t ++ ['"']
  else apostrophe :: body false t ++ [apostrophe]

end ErrnoBindings.Utility.Quoting
