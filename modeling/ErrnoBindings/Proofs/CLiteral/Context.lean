import ErrnoBindings.CLiteral.Reader
import Mathlib.Data.List.Chain

/-!
# Literals in their context

A generated literal stands in the middle of a file, and a compiler works on the file. Before it scans anything it
replaces trigraphs, and it splits the file into lines. So it is not enough that a literal is scanned as its text:
nothing in it may look like a trigraph, not even together with what follows it, and it must not end its line.

Everything here comes from one case distinction, `escape_cases`: a character is written as itself, behind a
backslash, or as three octal digits.

* `isControl_of_mem_encode`: no control character is written, so a literal stays on its line.
* `questionsApart_encode`: no two question marks are written side by side. The question marks of a run are kept
  apart by backslashes, and which of them gets one depends on the source text alone.
* `replaceTrigraphs_append`: such a text is left alone by the replacement of trigraphs, whatever follows it.
-/

namespace ErrnoBindings.CLiteral

/-! ## How a character is written -/

/-- A character is written in one of three ways: as itself, behind a backslash, or in octal. A question mark that
follows another one is not written as itself. -/
theorem escape_cases (b : Bool) (c : Char) :
    (escape b c = [c] ∧ isControl c = false ∧ (c = '?' → b = false)) ∨
      (∃ d, escape b c = ['\\', d] ∧ simpleEscape? d = some c) ∨
      escape b c = '\\' :: octal c.toNat := by
  simp only [escape]
  split
  · exact Or.inr (Or.inl ⟨_, rfl, rfl⟩)
  · exact Or.inr (Or.inl ⟨_, rfl, rfl⟩)
  · exact Or.inr (Or.inl ⟨_, rfl, rfl⟩)
  · exact Or.inr (Or.inl ⟨_, rfl, rfl⟩)
  · exact Or.inr (Or.inl ⟨_, rfl, rfl⟩)
  · cases b with
    | false => exact Or.inl ⟨rfl, by decide, fun _ => rfl⟩
    | true => exact Or.inr (Or.inl ⟨_, rfl, rfl⟩)
  · next hq =>
    split
    · exact Or.inr (Or.inr rfl)
    · next hc => exact Or.inl ⟨rfl, by simpa using hc, fun h => absurd h hq⟩

/-- The characters behind a backslash are no control characters. -/
theorem isControl_of_simpleEscape? {c d : Char} (h : simpleEscape? d = some c) : isControl d = false := by
  simp only [simpleEscape?] at h
  split at h <;> first | decide | cases h

/-- Behind a backslash, a question mark stands for itself only. -/
theorem eq_question_of_simpleEscape? {c : Char} (h : simpleEscape? '?' = some c) : c = '?' :=
  (Option.some.inj h).symm

/-- What stands in a group of octal digits is a digit below eight. -/
theorem eq_digitChar_of_mem_octal {n : Nat} {c : Char} (h : c ∈ octal n) : ∃ d < 8, c = Nat.digitChar d := by
  simp only [octal, List.mem_cons, List.not_mem_nil, or_false] at h
  rcases h with rfl | rfl | rfl
  · exact ⟨_, Nat.mod_lt _ (by decide), rfl⟩
  · exact ⟨_, Nat.mod_lt _ (by decide), rfl⟩
  · exact ⟨_, Nat.mod_lt _ (by decide), rfl⟩

theorem isControl_digitChar {d : Nat} (h : d < 8) : isControl (Nat.digitChar d) = false := by
  revert d
  decide

theorem digitChar_ne_question {d : Nat} (h : d < 8) : Nat.digitChar d ≠ '?' := by
  revert d
  decide

/-! ## No control characters -/

theorem isControl_of_mem_escape {b : Bool} {c d : Char} (h : d ∈ escape b c) : isControl d = false := by
  rcases escape_cases b c with ⟨he, hc, -⟩ | ⟨e, he, hs⟩ | he
  · rw [he, List.mem_singleton] at h
    rw [h]
    exact hc
  · rw [he, List.mem_pair] at h
    rcases h with rfl | rfl
    · decide
    · exact isControl_of_simpleEscape? hs
  · rw [he] at h
    rcases List.mem_cons.mp h with rfl | h
    · decide
    · obtain ⟨n, hn, rfl⟩ := eq_digitChar_of_mem_octal h
      exact isControl_digitChar hn

theorem isControl_of_mem_bodyFrom {b : Bool} {t : Text} {d : Char} (h : d ∈ bodyFrom b t) :
    isControl d = false := by
  induction t generalizing b with
  | nil => cases h
  | cons c cs ih =>
    rcases List.mem_append.mp h with h | h
    · exact isControl_of_mem_escape h
    · exact ih h

/-- A literal has no control character in it, whatever its text. -/
theorem isControl_of_mem_encode {t : Text} {d : Char} (h : d ∈ encode t) : isControl d = false := by
  rw [encode, List.cons_append, List.mem_cons, List.mem_append, List.mem_singleton] at h
  rcases h with rfl | h | rfl
  · decide
  · exact isControl_of_mem_bodyFrom h
  · decide

/-! ## Question marks apart -/

/-- No two question marks stand side by side. -/
def QuestionsApart (t : Text) : Prop := t.IsChain fun c d => ¬ (c = '?' ∧ d = '?')

instance (t : Text) : Decidable (QuestionsApart t) := inferInstanceAs (Decidable (List.IsChain _ _))

theorem questionsApart_cons_cons {c d : Char} {t : Text} :
    QuestionsApart (c :: d :: t) ↔ ¬ (c = '?' ∧ d = '?') ∧ QuestionsApart (d :: t) :=
  List.isChain_cons_cons

/-- Two pieces are joined safely when no question mark ends the first or none begins the second. -/
theorem QuestionsApart.append {s t : Text} (hs : QuestionsApart s) (ht : QuestionsApart t)
    (h : s.getLast? = some '?' → t.head? ≠ some '?') : QuestionsApart (s ++ t) := by
  refine List.isChain_append.mpr ⟨hs, ht, ?_⟩
  rintro x hx y hy ⟨rfl, rfl⟩
  exact h hx hy

/-- A text without any question mark has none side by side. -/
theorem questionsApart_of_not_mem {t : Text} (h : '?' ∉ t) : QuestionsApart t := by
  induction t with
  | nil => exact List.IsChain.nil
  | cons c t ih =>
    obtain ⟨hc, ht⟩ := not_or.mp fun hm => h (List.mem_cons.mpr hm)
    have hsingle : QuestionsApart [c] := List.IsChain.singleton c
    refine hsingle.append (ih ht) fun hl => ?_
    exact absurd (Option.some.inj hl).symm hc

theorem question_not_mem_octal (n : Nat) : '?' ∉ octal n := by
  intro h
  obtain ⟨d, hd, he⟩ := eq_digitChar_of_mem_octal h
  exact digitChar_ne_question hd he.symm

theorem questionsApart_escape (b : Bool) (c : Char) : QuestionsApart (escape b c) := by
  rcases escape_cases b c with ⟨he, -, -⟩ | ⟨d, he, -⟩ | he
  · rw [he]
    exact List.IsChain.singleton c
  · rw [he]
    exact questionsApart_cons_cons.mpr ⟨fun h => absurd h.1 (by decide), List.IsChain.singleton d⟩
  · rw [he]
    refine questionsApart_of_not_mem ?_
    rw [List.mem_cons, not_or]
    exact ⟨by decide, question_not_mem_octal _⟩

/-- What is written for a character ends in a question mark only if the character is one. -/
theorem eq_question_of_getLast?_escape {b : Bool} {c : Char} (h : (escape b c).getLast? = some '?') :
    c = '?' := by
  rcases escape_cases b c with ⟨he, -, -⟩ | ⟨d, he, hs⟩ | he
  · rw [he] at h
    exact Option.some.inj h
  · rw [he] at h
    obtain rfl : d = '?' := Option.some.inj h
    exact eq_question_of_simpleEscape? hs
  · rw [he] at h
    have hmem := List.mem_of_getLast? h
    rcases List.mem_cons.mp hmem with hb | hd
    · exact absurd hb (by decide)
    · exact absurd hd (question_not_mem_octal _)

/-- Behind a question mark of the source, nothing is written that begins with one. -/
theorem head?_escape_true (c : Char) : (escape true c).head? ≠ some '?' := by
  intro h
  rcases escape_cases true c with ⟨he, -, hb⟩ | ⟨d, he, -⟩ | he
  · rw [he] at h
    exact absurd (hb (Option.some.inj h)) (by decide)
  · rw [he] at h
    exact absurd (Option.some.inj h) (by decide)
  · rw [he] at h
    exact absurd (Option.some.inj h) (by decide)

theorem head?_bodyFrom_true (t : Text) : (bodyFrom true t).head? ≠ some '?' := by
  cases t with
  | nil =>
    intro h
    cases h
  | cons c cs =>
    rw [bodyFrom_cons, List.head?_append_of_ne_nil _ (escape_ne_nil true c)]
    exact head?_escape_true c

/-- The bit that `bodyFrom` carries is all that it takes to keep question marks apart. -/
theorem questionsApart_bodyFrom (b : Bool) (t : Text) : QuestionsApart (bodyFrom b t) := by
  induction t generalizing b with
  | nil => exact List.IsChain.nil
  | cons c cs ih =>
    refine (questionsApart_escape b c).append (ih _) fun hlast => ?_
    obtain rfl := eq_question_of_getLast?_escape hlast
    exact head?_bodyFrom_true cs

/-- In a literal no two question marks stand side by side, however many of them stood so in its text. -/
theorem questionsApart_encode (t : Text) : QuestionsApart (encode t) := by
  have hquote : QuestionsApart ['"'] := List.IsChain.singleton '"'
  have hopen : QuestionsApart ('"' :: body t) :=
    hquote.append (questionsApart_bodyFrom false t) fun h => absurd (Option.some.inj h) (by decide)
  exact hopen.append hquote fun _ h => absurd (Option.some.inj h) (by decide)

/-! ## Trigraphs -/

theorem replaceTrigraphs_cons_of_ne {c : Char} (h : c ≠ '?') (t : Text) :
    replaceTrigraphs (c :: t) = c :: replaceTrigraphs t := by
  rw [replaceTrigraphs]
  intro d rest hc
  exact absurd hc h

/-- A question mark that no other one follows begins no trigraph. -/
theorem replaceTrigraphs_question {t : Text} (h : t.head? ≠ some '?') :
    replaceTrigraphs ('?' :: t) = '?' :: replaceTrigraphs t := by
  rw [replaceTrigraphs]
  rintro d rest - rfl
  exact h rfl

/-- A text that keeps its question marks apart and does not end in one is left alone, whatever follows it. -/
theorem replaceTrigraphs_append {w : Text} (hw : QuestionsApart w) (hlast : w.getLast? ≠ some '?') (r : Text) :
    replaceTrigraphs (w ++ r) = w ++ replaceTrigraphs r := by
  induction w with
  | nil => rfl
  | cons c w ih =>
    cases w with
    | nil =>
      exact replaceTrigraphs_cons_of_ne (fun hc => hlast (by rw [hc]; rfl)) r
    | cons d w =>
      obtain ⟨hcd, hdw⟩ := questionsApart_cons_cons.mp hw
      have hrest : replaceTrigraphs ((d :: w) ++ r) = (d :: w) ++ replaceTrigraphs r :=
        ih hdw (by rwa [List.getLast?_cons_cons] at hlast)
      have hstep : replaceTrigraphs (c :: ((d :: w) ++ r)) = c :: replaceTrigraphs ((d :: w) ++ r) := by
        by_cases hc : c = '?'
        · subst hc
          exact replaceTrigraphs_question fun hd => hcd ⟨rfl, Option.some.inj hd⟩
        · exact replaceTrigraphs_cons_of_ne hc _
      rw [List.cons_append, hstep, hrest]
      rfl

/-- **A literal is undone in every context.** The replacement of trigraphs passes over it and goes on behind it, a
scan gives back its text and leaves what follows it, and so do the one behind the other, as a compiler does them. -/
theorem encode_in_context (t rest : Text) :
    replaceTrigraphs (encode t ++ rest) = encode t ++ replaceTrigraphs rest ∧
      scan? (encode t ++ rest) = some (t, rest) ∧
      scan? (replaceTrigraphs (encode t ++ rest)) = some (t, replaceTrigraphs rest) := by
  have hlast : (encode t).getLast? ≠ some '?' := by
    rw [encode, List.getLast?_concat]
    decide
  have hreplace := replaceTrigraphs_append (questionsApart_encode t) hlast rest
  refine ⟨hreplace, scan?_encode t rest, ?_⟩
  rw [hreplace]
  exact scan?_encode t _

end ErrnoBindings.CLiteral
