import ErrnoBindings.Text.Utf8

/-!
# What UTF-8 is read from

Strict decoding undoes encoding. Here is the converse: octets that are decoded are the form of the text that they are
decoded to, so that decoding accepts the forms of texts and nothing else (`Utf8.decode?_eq_some_iff`).

The machine that reads octets leaves no gap only if every character that is begun is finished, each of its octets in
the range that the machine has for it. These ranges leave exactly one form for each character, and so the octets that
were read are the ones that the character is written as (`exists_first_of_pieces`).

Of octets that are no form of a text it can still be said how they end. An octet below `80` never continues anything,
so that at the end it is shown as the character that it is (`decodeLossy_concat`).
-/

namespace ErrnoBindings.Utf8

/-! ## Octets that leave no gap -/

/-- What a first octet begins, by the length of the form. -/
theorem lead?_eq_some {n : Nat} {p : Begun} (h : lead? n = some p) :
    0xC2 ≤ n ∧ n ≤ 0xDF ∧ p = ⟨0, 0x80, 0xBF, n - 0xC0⟩ ∨
    0xE0 ≤ n ∧ n ≤ 0xEF ∧
      p = ⟨1, if n = 0xE0 then 0xA0 else 0x80, if n = 0xED then 0x9F else 0xBF, n - 0xE0⟩ ∨
    0xF0 ≤ n ∧ n ≤ 0xF4 ∧
      p = ⟨2, if n = 0xF0 then 0x90 else 0x80, if n = 0xF4 then 0x8F else 0xBF, n - 0xF0⟩ := by
  by_cases htwo : 0xC2 ≤ n ∧ n ≤ 0xDF
  · rw [lead?_two htwo] at h
    exact Or.inl ⟨htwo.1, htwo.2, (Option.some.inj h).symm⟩
  by_cases hthree : 0xE0 ≤ n ∧ n ≤ 0xEF
  · rw [lead?_three hthree] at h
    exact Or.inr (Or.inl ⟨hthree.1, hthree.2, (Option.some.inj h).symm⟩)
  by_cases hfour : 0xF0 ≤ n ∧ n ≤ 0xF4
  · rw [lead?_four hfour] at h
    exact Or.inr (Or.inr ⟨hfour.1, hfour.2, (Option.some.inj h).symm⟩)
  · have hnone : lead? n = none := by
      rw [lead?, if_neg htwo, if_neg (by omega), if_neg (by omega), if_neg (by omega), if_neg (by omega),
        if_neg (by omega), if_neg (by omega)]
    rw [hnone] at h
    cases h

/-- Octets that leave no gap continue the character begun: the next one lies in its range, and is read as such. -/
theorem exists_of_pieces_begun {p : Begun} {bs : Bytes} {t : Text} (h : pieces (some p) bs = t.map some) :
    ∃ b rest, bs = b :: rest ∧ p.least ≤ b.toNat ∧ b.toNat ≤ p.greatest ∧
      (stepWithin p b.toNat).1 ++ pieces (stepWithin p b.toNat).2 rest = t.map some := by
  cases bs with
  | nil =>
    have hmem : none ∈ t.map some := h ▸ List.mem_singleton.mpr rfl
    simp at hmem
  | cons b rest =>
    by_cases hb : p.least ≤ b.toNat ∧ b.toNat ≤ p.greatest
    · rw [pieces, step_within hb] at h
      exact ⟨b, rest, rfl, hb.1, hb.2, h⟩
    · have hmem : none ∈ t.map some := by
        rw [← h, pieces, step, if_neg hb]
        simp
      simp at hmem

theorem exists_of_pieces_last {least greatest bits : Nat} {bs : Bytes} {t : Text}
    (h : pieces (some ⟨0, least, greatest, bits⟩) bs = t.map some) :
    ∃ b rest u, bs = b :: rest ∧ least ≤ b.toNat ∧ b.toNat ≤ greatest ∧
      t = Char.ofNat (bits * 64 + (b.toNat - 0x80)) :: u ∧ pieces none rest = u.map some := by
  obtain ⟨b, rest, rfl, hleast, hgreatest, h⟩ := exists_of_pieces_begun h
  cases t with
  | nil => simp [stepWithin] at h
  | cons c u =>
    simp only [stepWithin, List.singleton_append, List.map_cons, List.cons.injEq, Option.some.injEq] at h
    exact ⟨b, rest, u, rfl, hleast, hgreatest, by rw [h.1], h.2⟩

theorem exists_of_pieces_more {after least greatest bits : Nat} {bs : Bytes} {t : Text}
    (h : pieces (some ⟨after + 1, least, greatest, bits⟩) bs = t.map some) :
    ∃ b rest, bs = b :: rest ∧ least ≤ b.toNat ∧ b.toNat ≤ greatest ∧
      pieces (some ⟨after, 0x80, 0xBF, bits * 64 + (b.toNat - 0x80)⟩) rest = t.map some := by
  obtain ⟨b, rest, rfl, hleast, hgreatest, h⟩ := exists_of_pieces_begun h
  exact ⟨b, rest, rfl, hleast, hgreatest, h⟩

/-- The value of a character that is given by its value. -/
theorem toNat_val_ofNat {v : Nat} (h : v < 0xD800 ∨ 0xDFFF < v ∧ v < 0x110000) : (Char.ofNat v).val.toNat = v := by
  have hvalid : v.isValidChar := h
  rw [Char.ofNat, dif_pos hvalid]
  rfl

theorem ofNat_eq_of_toNat {b : UInt8} {n : Nat} (h : n = b.toNat) : UInt8.ofNat n = b := by
  rw [h, UInt8.ofNat_toNat]

/-- The form of two octets, read and written back. -/
theorem encodeChar_two {a b : UInt8} (ha : 0xC2 ≤ a.toNat ∧ a.toNat ≤ 0xDF) (hb : 0x80 ≤ b.toNat ∧ b.toNat ≤ 0xBF) :
    String.utf8EncodeChar (Char.ofNat ((a.toNat - 0xC0) * 64 + (b.toNat - 0x80))) = [a, b] := by
  rw [String.utf8EncodeChar, toNat_val_ofNat (by omega), if_neg (by omega), if_pos (by omega)]
  rw [ofNat_eq_of_toNat (b := a) (by omega), ofNat_eq_of_toNat (b := b) (by omega)]

/-- The form of three octets, where the second one lies in its range. -/
theorem encodeChar_three {a b c : UInt8} (ha : 0xE0 ≤ a.toNat ∧ a.toNat ≤ 0xEF)
    (hleast : (if a.toNat = 0xE0 then 0xA0 else 0x80) ≤ b.toNat)
    (hgreatest : b.toNat ≤ if a.toNat = 0xED then 0x9F else 0xBF) (hc : 0x80 ≤ c.toNat ∧ c.toNat ≤ 0xBF) :
    String.utf8EncodeChar
      (Char.ofNat (((a.toNat - 0xE0) * 64 + (b.toNat - 0x80)) * 64 + (c.toNat - 0x80))) = [a, b, c] := by
  have hb : 0x80 ≤ b.toNat ∧ b.toNat ≤ 0xBF ∧ (a.toNat = 0xE0 → 0xA0 ≤ b.toNat) ∧
      (a.toNat = 0xED → b.toNat ≤ 0x9F) := by
    split at hleast <;> split at hgreatest <;> omega
  rw [String.utf8EncodeChar, toNat_val_ofNat (by omega), if_neg (by omega), if_neg (by omega), if_pos (by omega)]
  rw [ofNat_eq_of_toNat (b := a) (by omega), ofNat_eq_of_toNat (b := b) (by omega),
    ofNat_eq_of_toNat (b := c) (by omega)]

/-- The form of four octets, where the second one lies in its range. -/
theorem encodeChar_four {a b c d : UInt8} (ha : 0xF0 ≤ a.toNat ∧ a.toNat ≤ 0xF4)
    (hleast : (if a.toNat = 0xF0 then 0x90 else 0x80) ≤ b.toNat)
    (hgreatest : b.toNat ≤ if a.toNat = 0xF4 then 0x8F else 0xBF) (hc : 0x80 ≤ c.toNat ∧ c.toNat ≤ 0xBF)
    (hd : 0x80 ≤ d.toNat ∧ d.toNat ≤ 0xBF) :
    String.utf8EncodeChar
      (Char.ofNat ((((a.toNat - 0xF0) * 64 + (b.toNat - 0x80)) * 64 + (c.toNat - 0x80)) * 64 + (d.toNat - 0x80))) =
        [a, b, c, d] := by
  have hb : 0x80 ≤ b.toNat ∧ b.toNat ≤ 0xBF ∧ (a.toNat = 0xF0 → 0x90 ≤ b.toNat) ∧
      (a.toNat = 0xF4 → b.toNat ≤ 0x8F) := by
    split at hleast <;> split at hgreatest <;> omega
  rw [String.utf8EncodeChar, toNat_val_ofNat (by omega), if_neg (by omega), if_neg (by omega), if_neg (by omega)]
  rw [ofNat_eq_of_toNat (b := a) (by omega), ofNat_eq_of_toNat (b := b) (by omega),
    ofNat_eq_of_toNat (b := c) (by omega), ofNat_eq_of_toNat (b := d) (by omega)]

/-- Octets that are read without a gap begin with the form of the first character. -/
theorem exists_first_of_pieces {a : UInt8} {bs : Bytes} {t : Text} (h : pieces none (a :: bs) = t.map some) :
    ∃ c u rest, t = c :: u ∧ a :: bs = String.utf8EncodeChar c ++ rest ∧ pieces none rest = u.map some := by
  rw [pieces, step, stepFirst] at h
  split at h
  · next hone =>
    cases t with
    | nil => simp at h
    | cons c u =>
      simp only [List.singleton_append, List.map_cons, List.cons.injEq, Option.some.injEq] at h
      obtain ⟨rfl, htail⟩ := h
      refine ⟨_, u, bs, rfl, ?_, htail⟩
      rw [String.utf8EncodeChar, toNat_val_ofNat (by omega), if_pos (by omega), UInt8.ofNat_toNat]
      rfl
  · split at h
    · next hlead =>
      -- the first octet says how many are to follow
      rw [List.nil_append] at h
      rcases lead?_eq_some hlead with ⟨hl, hg, rfl⟩ | ⟨hl, hg, rfl⟩ | ⟨hl, hg, rfl⟩
      · obtain ⟨b, rest, u, rfl, hb, hb', rfl, htail⟩ := exists_of_pieces_last h
        exact ⟨_, u, rest, rfl, by rw [encodeChar_two ⟨hl, hg⟩ ⟨hb, hb'⟩]; rfl, htail⟩
      · obtain ⟨b, bs, rfl, hb, hb', h₁⟩ := exists_of_pieces_more h
        obtain ⟨c, rest, u, rfl, hc, hc', rfl, htail⟩ := exists_of_pieces_last h₁
        exact ⟨_, u, rest, rfl, by rw [encodeChar_three ⟨hl, hg⟩ hb hb' ⟨hc, hc'⟩]; rfl, htail⟩
      · obtain ⟨b, bs, rfl, hb, hb', h₁⟩ := exists_of_pieces_more h
        obtain ⟨c, bs, rfl, hc, hc', h₂⟩ := exists_of_pieces_more h₁
        obtain ⟨d, rest, u, rfl, hd, hd', rfl, htail⟩ := exists_of_pieces_last h₂
        exact ⟨_, u, rest, rfl, by rw [encodeChar_four ⟨hl, hg⟩ hb hb' ⟨hc, hc'⟩ ⟨hd, hd'⟩]; rfl, htail⟩
    · have hmem : none ∈ t.map some := h ▸ List.mem_cons_self ..
      simp at hmem

/-- Octets that are read without a gap are the form of what is read. -/
theorem encode_of_pieces {bs : Bytes} {t : Text} (h : pieces none bs = t.map some) : encode t = bs := by
  induction t generalizing bs with
  | nil =>
    cases bs with
    | nil => rfl
    | cons a bs =>
      obtain ⟨c, u, rest, ht, -, -⟩ := exists_first_of_pieces h
      cases ht
  | cons c t ih =>
    cases bs with
    | nil => cases h
    | cons a bs =>
      obtain ⟨c', u, rest, ht, hform, hrest⟩ := exists_first_of_pieces h
      cases ht
      rw [encode_cons, ih hrest, hform]

theorem characters?_eq_some {ps : List (Option Char)} {t : Text} (h : characters? ps = some t) : ps = t.map some := by
  induction ps generalizing t with
  | nil =>
    cases h
    rfl
  | cons p ps ih =>
    cases p with
    | none => cases h
    | some c =>
      obtain ⟨u, hu, rfl⟩ := Option.map_eq_some_iff.mp h
      rw [ih hu]
      rfl

/-- **Strict decoding reads the forms of texts and nothing else.** -/
theorem decode?_eq_some_iff {bs : Bytes} {t : Text} : decode? bs = some t ↔ encode t = bs := by
  constructor
  · intro h
    exact encode_of_pieces (characters?_eq_some h)
  · rintro rfl
    exact decode?_encode t

/-- Texts with the same form are the same. -/
theorem encode_injective {s t : Text} (h : encode s = encode t) : s = t := by
  have hread := decode?_encode s
  rw [h, decode?_encode] at hread
  exact (Option.some.inj hread).symm

@[simp] theorem encode_inj {s t : Text} : encode s = encode t ↔ s = t := ⟨encode_injective, congrArg encode⟩

/-! ## Octets that continue nothing -/

/-- What the machine waits for, if it waits for anything, is no octet below `80`. -/
def Continues (s : Option Begun) : Prop := ∀ p, s = some p → 0x80 ≤ p.least

theorem continues_none : Continues none := fun _ h => by cases h

theorem continues_stepFirst (n : Nat) : Continues (stepFirst n).2 := by
  intro p hp
  rw [stepFirst] at hp
  split at hp
  · cases hp
  · split at hp
    · next q hq =>
      cases hp
      rcases lead?_eq_some hq with ⟨-, -, rfl⟩ | ⟨-, -, rfl⟩ | ⟨-, -, rfl⟩
      · exact Nat.le_refl _
      · dsimp only
        split <;> omega
      · dsimp only
        split <;> omega
    · cases hp

/-- The machine never waits for such an octet. -/
theorem continues_step (s : Option Begun) (n : Nat) : Continues (step s n).2 := by
  cases s with
  | none => exact continues_stepFirst n
  | some p =>
    rw [step]
    split
    · rw [stepWithin]
      intro q hq
      split at hq
      · cases hq
      · cases hq
        exact Nat.le_refl _
    · exact continues_stepFirst n

theorem pieces_cons (s : Option Begun) (b : UInt8) (bs : Bytes) :
    pieces s (b :: bs) = (step s b.toNat).1 ++ pieces (step s b.toNat).2 bs := by
  cases s <;> rfl

/-- An octet below `80` at the end is a character of its own, whatever stands before it. -/
theorem pieces_concat {s : Option Begun} (hs : Continues s) {b : UInt8} (hb : b.toNat < 0x80) (bs : Bytes) :
    pieces s (bs ++ [b]) = pieces s bs ++ [some (Char.ofNat b.toNat)] := by
  induction bs generalizing s with
  | nil =>
    have hfirst : stepFirst b.toNat = ([some (Char.ofNat b.toNat)], none) := by rw [stepFirst, if_pos hb]
    rw [List.nil_append, pieces_cons]
    cases s with
    | none =>
      rw [step, hfirst]
      rfl
    | some p =>
      have hleast := hs p rfl
      rw [step, if_neg (by omega), hfirst]
      rfl
  | cons a bs ih => rw [List.cons_append, pieces_cons, pieces_cons, ih (continues_step s a.toNat), List.append_assoc]

/-- So it is the last character that is shown. -/
theorem decodeLossy_concat {b : UInt8} (hb : b.toNat < 0x80) (bs : Bytes) :
    decodeLossy (bs ++ [b]) = decodeLossy bs ++ [Char.ofNat b.toNat] := by
  rw [decodeLossy, pieces_concat continues_none hb, List.map_append]
  rfl

end ErrnoBindings.Utf8
