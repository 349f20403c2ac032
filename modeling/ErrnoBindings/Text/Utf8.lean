import ErrnoBindings.Text.Basic

/-!
# UTF-8

Files, command output and names are octets; texts are characters. Going from a text to octets always works
(`Utf8.encode`). The way back is read by a small machine that looks at one octet at a time (`Utf8.step`): between
characters it looks for a first octet, and after one it knows how many continuation octets are due and in what
range the next of them has to lie. The ranges leave out overlong forms, surrogates and anything past `U+10FFFF`.

The machine's answer is a list of *pieces*: a character, or a gap for each maximal run of octets that begins a
character and does not finish it. Strict decoding (`Utf8.decode?`) wants no gap, and lossy decoding
(`Utf8.decodeLossy`) writes `U+FFFD` for each.
-/

namespace ErrnoBindings.Utf8

/-- The UTF-8 form of a text. -/
def encode (t : Text) : Bytes := t.flatMap String.utf8EncodeChar

@[simp] theorem encode_cons (c : Char) (t : Text) : encode (c :: t) = String.utf8EncodeChar c ++ encode t := by
  simp [encode]

@[simp] theorem encode_append (s t : Text) : encode (s ++ t) = encode s ++ encode t := by
  simp [encode]

/-- The octets of a text's UTF-8 form are as many as `byteLength` counts. -/
theorem length_encode (t : Text) : (encode t).length = byteLength t := by
  induction t with
  | nil => rfl
  | cons c t ih => simp [ih, String.length_utf8EncodeChar]

/-! ## The machine -/

/-- A character whose first octets have been read. -/
structure Begun where
  /-- the continuation octets that are due after the next one -/
  after : Nat
  /-- the least octet that may come next -/
  least : Nat
  /-- the greatest octet that may come next -/
  greatest : Nat
  /-- the value of the bits read so far -/
  bits : Nat
  deriving DecidableEq, Repr

/-- What a first octet above `7F` begins, if it begins anything. -/
def lead? (b : Nat) : Option Begun :=
  if 0xC2 ≤ b ∧ b ≤ 0xDF then some ⟨0, 0x80, 0xBF, b - 0xC0⟩
  else if b = 0xE0 then some ⟨1, 0xA0, 0xBF, 0⟩
  else if b = 0xED then some ⟨1, 0x80, 0x9F, 0xD⟩
  else if 0xE1 ≤ b ∧ b ≤ 0xEF then some ⟨1, 0x80, 0xBF, b - 0xE0⟩
  else if b = 0xF0 then some ⟨2, 0x90, 0xBF, 0⟩
  else if 0xF1 ≤ b ∧ b ≤ 0xF3 then some ⟨2, 0x80, 0xBF, b - 0xF0⟩
  else if b = 0xF4 then some ⟨2, 0x80, 0x8F, 4⟩
  else none

/-- Reads an octet between two characters: the pieces that are finished by it, and the character that it
begins. -/
def stepFirst (b : Nat) : List (Option Char) × Option Begun :=
  if b < 0x80 then ([some (Char.ofNat b)], none)
  else match lead? b with
    | some p => ([], some p)
    | none => ([none], none)

/-- Reads an octet that continues the character begun. -/
def stepWithin (p : Begun) (b : Nat) : List (Option Char) × Option Begun :=
  match p.after with
  | 0 => ([some (Char.ofNat (p.bits * 64 + (b - 0x80)))], none)
  | n + 1 => ([], some ⟨n, 0x80, 0xBF, p.bits * 64 + (b - 0x80)⟩)

/-- Reads one octet. An octet that cannot continue the character begun leaves a gap in its place and is then read
as a first octet itself. -/
def step : Option Begun → Nat → List (Option Char) × Option Begun
  | none, b => stepFirst b
  | some p, b =>
    if p.least ≤ b ∧ b ≤ p.greatest then stepWithin p b
    else (none :: (stepFirst b).1, (stepFirst b).2)

/-- The pieces of some octets: characters, and a gap for each maximal run that is the start of a character and no
more. -/
def pieces : Option Begun → Bytes → List (Option Char)
  | none, [] => []
  | some _, [] => [none]
  | s, b :: bs => (step s b.toNat).1 ++ pieces (step s b.toNat).2 bs

/-- The characters, if there is no gap among the pieces. -/
def characters? : List (Option Char) → Option Text
  | [] => some []
  | none :: _ => none
  | some c :: ps => (characters? ps).map (c :: ·)

/-- The text that some octets are the UTF-8 form of. -/
def decode? (b : Bytes) : Option Text := characters? (pieces none b)

/-- The text that some octets stand for when every gap is written `U+FFFD`. -/
def decodeLossy (b : Bytes) : Text := (pieces none b).map fun p => p.getD '\uFFFD'

/-! ## Reading back what was written -/

/-- One octet, given by its value. -/
theorem pieces_ofNat (s : Option Begun) {n : Nat} (h : n < 256) (bs : Bytes) :
    pieces s (UInt8.ofNat n :: bs) = (step s n).1 ++ pieces (step s n).2 bs := by
  have hn : (UInt8.ofNat n).toNat = n := by
    rw [UInt8.toNat_ofNat']
    exact Nat.mod_eq_of_lt h
  cases s <;> simp only [pieces, hn]

theorem stepFirst_of_lead {n : Nat} {p : Begun} (h : 0x80 ≤ n) (hp : lead? n = some p) :
    stepFirst n = ([], some p) := by
  rw [stepFirst, if_neg (by omega), hp]

theorem lead?_two {n : Nat} (h : 0xC2 ≤ n ∧ n ≤ 0xDF) : lead? n = some ⟨0, 0x80, 0xBF, n - 0xC0⟩ := by
  rw [lead?, if_pos h]

/-- The first octet of a three-octet form, with the range that its second octet has to lie in. -/
theorem lead?_three {n : Nat} (h : 0xE0 ≤ n ∧ n ≤ 0xEF) :
    lead? n = some ⟨1, if n = 0xE0 then 0xA0 else 0x80, if n = 0xED then 0x9F else 0xBF, n - 0xE0⟩ := by
  rw [lead?, if_neg (by omega)]
  by_cases h0 : n = 0xE0
  · subst h0
    rfl
  · by_cases hd : n = 0xED
    · subst hd
      rfl
    · rw [if_neg h0, if_neg hd, if_pos (by omega), if_neg h0, if_neg hd]

/-- The first octet of a four-octet form, with the range that its second octet has to lie in. -/
theorem lead?_four {n : Nat} (h : 0xF0 ≤ n ∧ n ≤ 0xF4) :
    lead? n = some ⟨2, if n = 0xF0 then 0x90 else 0x80, if n = 0xF4 then 0x8F else 0xBF, n - 0xF0⟩ := by
  rw [lead?, if_neg (by omega), if_neg (by omega), if_neg (by omega), if_neg (by omega)]
  by_cases h0 : n = 0xF0
  · subst h0
    rfl
  · by_cases h4 : n = 0xF4
    · subst h4
      rfl
    · rw [if_neg h0, if_pos (by omega), if_neg h0, if_neg h4]

theorem step_within {p : Begun} {n : Nat} (h : p.least ≤ n ∧ n ≤ p.greatest) :
    step (some p) n = stepWithin p n := by
  rw [step, if_pos h]

/-- The machine reads the form of a character, from between two characters to between two characters, as that
character. -/
theorem pieces_encodeChar (c : Char) (rest : Bytes) :
    pieces none (String.utf8EncodeChar c ++ rest) = some c :: pieces none rest := by
  have hc : Char.ofNat c.val.toNat = c := Char.ofNat_toNat c
  have hvalid : c.val.toNat < 0xD800 ∨ 0xDFFF < c.val.toNat ∧ c.val.toNat < 0x110000 := c.valid
  rw [String.utf8EncodeChar]
  generalize c.val.toNat = v at hc hvalid
  split
  · next h =>
    -- one octet: the character itself
    rw [List.singleton_append, pieces_ofNat _ (by omega), step, stepFirst, if_pos (by omega), hc]
    rfl
  split
  · next h =>
    -- two octets: five bits and six
    rw [List.cons_append, List.singleton_append, pieces_ofNat _ (by omega), step,
      stepFirst_of_lead (by omega) (lead?_two (by omega)), List.nil_append, pieces_ofNat _ (by omega),
      step_within (by dsimp only; omega), stepWithin]
    dsimp only
    rw [show (v / 64 % 32 + 192 - 0xC0) * 64 + (v % 64 + 128 - 0x80) = v by omega, hc]
    rfl
  split
  · next h =>
    -- three octets: the lead leaves out overlong forms and surrogates
    rw [List.cons_append, List.cons_append, List.singleton_append, pieces_ofNat _ (by omega), step,
      stepFirst_of_lead (by omega) (lead?_three (by omega)), List.nil_append, pieces_ofNat _ (by omega),
      step_within (by dsimp only; split <;> split <;> omega), stepWithin]
    dsimp only
    rw [List.nil_append, pieces_ofNat _ (by omega), step_within (by dsimp only; omega), stepWithin]
    dsimp only
    rw [show ((v / 4096 % 16 + 224 - 0xE0) * 64 + (v / 64 % 64 + 128 - 0x80)) * 64 + (v % 64 + 128 - 0x80) = v by
      omega, hc]
    rfl
  · next h =>
    -- four octets: the lead leaves out overlong forms and what is too great
    rw [List.cons_append, List.cons_append, List.cons_append, List.singleton_append, pieces_ofNat _ (by omega),
      step, stepFirst_of_lead (by omega) (lead?_four (by omega)), List.nil_append, pieces_ofNat _ (by omega),
      step_within (by dsimp only; split <;> split <;> omega), stepWithin]
    dsimp only
    rw [List.nil_append, pieces_ofNat _ (by omega), step_within (by dsimp only; omega), stepWithin]
    dsimp only
    rw [List.nil_append, pieces_ofNat _ (by omega), step_within (by dsimp only; omega), stepWithin]
    dsimp only
    rw [show (((v / 262144 % 8 + 240 - 0xF0) * 64 + (v / 4096 % 64 + 128 - 0x80)) * 64
      + (v / 64 % 64 + 128 - 0x80)) * 64 + (v % 64 + 128 - 0x80) = v by omega, hc]
    rfl

@[simp] theorem pieces_encode (t : Text) : pieces none (encode t) = t.map some := by
  induction t with
  | nil => rfl
  | cons c t ih => simp [pieces_encodeChar, ih]

theorem characters?_map_some (t : Text) : characters? (t.map some) = some t := by
  induction t with
  | nil => rfl
  | cons c t ih => simp [characters?, ih]

/-- Strict decoding undoes encoding. -/
@[simp] theorem decode?_encode (t : Text) : decode? (encode t) = some t := by
  simp [decode?, characters?_map_some]

/-- Lossy decoding loses nothing of a text's own form. -/
@[simp] theorem decodeLossy_encode (t : Text) : decodeLossy (encode t) = t := by
  simp [decodeLossy, Function.comp_def]

end ErrnoBindings.Utf8
