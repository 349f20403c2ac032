import ErrnoBindings.CLiteral.Basic

/-!
# Reading C string literals

What a C compiler does with a string literal, as far as generated literals need it, in the order in which it does
it: trigraphs are replaced everywhere first, and then a literal is scanned from its opening quote to the first
quote that no backslash stands before.

The scanner knows the escapes that `CLiteral.encode` writes and octal escapes of one to three digits, of which it
always takes as many as it finds. A raw newline, an unknown escape and a missing end are refused. What
`CLiteral.encode` wrote is scanned as the text that it was made of, whatever follows it (`scan?_encode`).
-/

namespace ErrnoBindings.CLiteral

/-! ## Trigraphs -/

/-- What two question marks and a third character stand for, if they are a trigraph. -/
def trigraph? : Char → Option Char
  | '=' => some '#'
  | '/' => some '\\'
  | '\x27' => some '^'
  | '(' => some '['
  | ')' => some ']'
  | '!' => some '|'
  | '<' => some (Char.ofNat 0x7B)
  | '>' => some (Char.ofNat 0x7D)
  | '-' => some '~'
  | _ => none

/-- Replaces trigraphs, from left to right. -/
def replaceTrigraphs : Text → Text
  | '?' :: '?' :: c :: rest =>
    match trigraph? c with
    | some d => d :: replaceTrigraphs rest
    | none => '?' :: replaceTrigraphs ('?' :: c :: rest)
  | c :: rest => c :: replaceTrigraphs rest
  | [] => []

/-! ## Scanning -/

/-- What a backslash and one character stand for, if they are an escape without digits. -/
def simpleEscape? : Char → Option Char
  | '\\' => some '\\'
  | '"' => some '"'
  | '?' => some '?'
  | 'n' => some '\n'
  | 'r' => some '\r'
  | 't' => some '\t'
  | _ => none

/-- The value of an octal digit. -/
def octalDigit? (c : Char) : Option Nat :=
  if '0' ≤ c ∧ c ≤ '7' then some (c.toNat - '0'.toNat) else none

/-- Puts a character in front of what a scan found. -/
def push (c : Char) (found : Option (Text × Text)) : Option (Text × Text) :=
  found.map fun p => (c :: p.1, p.2)

/-- Scans from behind the opening quote: the text of the literal, and what follows its closing quote. -/
def scanBody : Text → Option (Text × Text)
  | [] => none
  | '"' :: rest => some ([], rest)
  | '\n' :: _ => none
  | '\\' :: c :: rest =>
    match simpleEscape? c, octalDigit? c with
    | some d, _ => push d (scanBody rest)
    | none, none => none
    | none, some x =>
      match rest with
      | [] => none
      | d :: rest₁ =>
        match octalDigit? d with
        | none => push (Char.ofNat x) (scanBody (d :: rest₁))
        | some y =>
          match rest₁ with
          | [] => none
          | e :: rest₂ =>
            match octalDigit? e with
            | none => push (Char.ofNat (x * 8 + y)) (scanBody (e :: rest₂))
            | some z => push (Char.ofNat ((x * 8 + y) * 8 + z)) (scanBody rest₂)
  | '\\' :: [] => none
  | c :: rest => push c (scanBody rest)

/-- Scans a string literal: its text, and what follows it. -/
def scan? : Text → Option (Text × Text)
  | '"' :: rest => scanBody rest
  | _ => none

/-! ## Reading back what was written -/

theorem simpleEscape?_digitChar {n : Nat} (h : n < 8) : simpleEscape? (Nat.digitChar n) = none := by
  revert n
  decide

theorem octalDigit?_digitChar {n : Nat} (h : n < 8) : octalDigit? (Nat.digitChar n) = some n := by
  revert n
  decide

/-- Three octal digits behind a backslash are one character, whatever follows. -/
theorem scanBody_octal {n : Nat} (h : n < 512) (rest : Text) :
    scanBody ('\\' :: (octal n ++ rest)) = push (Char.ofNat n) (scanBody rest) := by
  have h₁ : n / 64 % 8 < 8 := Nat.mod_lt _ (by decide)
  have h₂ : n / 8 % 8 < 8 := Nat.mod_lt _ (by decide)
  have h₃ : n % 8 < 8 := Nat.mod_lt _ (by decide)
  have hn : (n / 64 % 8 * 8 + n / 8 % 8) * 8 + n % 8 = n := by omega
  simp only [octal, List.cons_append, List.nil_append]
  rw [scanBody]
  simp only [simpleEscape?_digitChar h₁, octalDigit?_digitChar h₁, octalDigit?_digitChar h₂,
    octalDigit?_digitChar h₃, hn]

/-- A character that is neither a quote, a backslash nor a newline is scanned as itself. -/
theorem scanBody_plain {c : Char} (hq : c ≠ '"') (hb : c ≠ '\\') (hn : c ≠ '\n') (rest : Text) :
    scanBody (c :: rest) = push c (scanBody rest) := by
  rw [scanBody]
  all_goals simp_all

/-- The written form of a character is scanned as that character. -/
theorem scanBody_escape (b : Bool) (c : Char) (rest : Text) :
    scanBody (escape b c ++ rest) = push c (scanBody rest) := by
  unfold escape
  split
  · rw [List.cons_append, List.cons_append, scanBody]
    rfl
  · rw [List.cons_append, List.cons_append, scanBody]
    rfl
  · rw [List.cons_append, List.cons_append, scanBody]
    rfl
  · rw [List.cons_append, List.cons_append, scanBody]
    rfl
  · rw [List.cons_append, List.cons_append, scanBody]
    rfl
  · split
    · rw [List.cons_append, List.cons_append, scanBody]
      rfl
    · exact scanBody_plain (by decide) (by decide) (by decide) rest
  · next hb hq hn _ _ _ =>
    split
    · next hc =>
      have hlt : c.toNat < 512 := by
        simp only [isControl, Bool.or_eq_true, decide_eq_true_eq] at hc
        omega
      rw [List.cons_append, scanBody_octal hlt, Char.ofNat_toNat]
    · exact scanBody_plain hq hb hn rest

/-- What stands between the quotes is scanned as the text that it was made of, and the scan ends behind the closing
quote. The bit that the writer carried makes no difference to the reader. -/
theorem scanBody_bodyFrom (b : Bool) (t rest : Text) : scanBody (bodyFrom b t ++ '"' :: rest) = some (t, rest) := by
  induction t generalizing b with
  | nil => rw [bodyFrom_nil, List.nil_append, scanBody]
  | cons c cs ih =>
    rw [bodyFrom_cons, List.append_assoc, scanBody_escape, ih]
    rfl

/-- A literal is scanned as the text that it was made of, and the scan ends at its end. -/
theorem scan?_encode (t rest : Text) : scan? (encode t ++ rest) = some (t, rest) := by
  rw [encode, List.cons_append, List.cons_append, List.append_assoc]
  exact scanBody_bodyFrom false t rest

end ErrnoBindings.CLiteral
