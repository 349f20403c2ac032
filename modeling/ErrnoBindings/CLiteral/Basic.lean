import ErrnoBindings.Text.Basic

/-!
# C string literals

Descriptions come from the host and may hold anything. In the generated function they stand inside string
literals, so each character is written in a way that a C compiler reads back as that character wherever it
stands:

* the backslash, the double quote, the newline, the carriage return and the tab have escapes of their own;
* a question mark directly after another one is written `\?`, so that no two of them meet and no trigraph can
  form;
* any other ASCII control character is written with all three of its octal digits, so that a digit behind it is
  not taken for a fourth;
* everything else, non-ASCII text included, stands for itself.

How a character is written depends on the character and on whether a question mark stands before it in the
*source* text, and on nothing else. `bodyFrom` carries exactly that one bit.
-/

namespace ErrnoBindings.CLiteral

/-- The ASCII control characters: the first thirty-two, and `DEL`. -/
def isControl (c : Char) : Bool := decide (c.toNat < 0x20) || decide (c.toNat = 0x7F)

/-- A number below `8 ^ 3` in three octal digits. -/
def octal (n : Nat) : Text := [Nat.digitChar (n / 64 % 8), Nat.digitChar (n / 8 % 8), Nat.digitChar (n % 8)]

/-- How one character is written, given whether a question mark stands before it. -/
def escape (afterQuestion : Bool) (c : Char) : Text :=
  match c with
  | '\\' => ['\\', '\\']
  | '"' => ['\\', '"']
  | '\n' => ['\\', 'n']
  | '\r' => ['\\', 'r']
  | '\t' => ['\\', 't']
  | '?' => if afterQuestion then ['\\', '?'] else ['?']
  | c => if isControl c then '\\' :: octal c.toNat else [c]

/-- What stands between the quotes, given whether a question mark stands before the text. -/
def bodyFrom : Bool → Text → Text
  | _, [] => []
  | afterQuestion, c :: cs => escape afterQuestion c ++ bodyFrom (c == '?') cs

/-- What stands between the quotes. -/
def body (t : Text) : Text := bodyFrom false t

/-- A text as a C string literal. -/
def encode (t : Text) : Text := '"' :: body t ++ ['"']

@[simp] theorem bodyFrom_nil (b : Bool) : bodyFrom b [] = [] := rfl

@[simp] theorem bodyFrom_cons (b : Bool) (c : Char) (cs : Text) :
    bodyFrom b (c :: cs) = escape b c ++ bodyFrom (c == '?') cs := rfl

/-- No character is written as nothing. -/
theorem escape_ne_nil (b : Bool) (c : Char) : escape b c ≠ [] := by
  unfold escape
  split <;> simp <;> split <;> simp

/-- Only a question mark cares for what stands before it. -/
theorem escape_eq_of_ne {c : Char} (h : c ≠ '?') (b : Bool) : escape b c = escape false c := by
  unfold escape
  split <;> first | rfl | exact absurd rfl h

end ErrnoBindings.CLiteral
