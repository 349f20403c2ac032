import ErrnoBindings.Proofs.CLiteral.Context
import ErrnoBindings.Text.Lines

/-!
# Literals piece by piece

What stands between the quotes of a literal is made of pieces, one for each character of its text. A piece depends on
its character and on one bit: whether the character directly before it in the text is a question mark
(`bodyFrom_eq_flatten`). `bodyFrom` hands this bit on from character to character and from one part of a text to the
next (`bodyFrom_append`), so a text that is put together is written part by part, and only where a question mark meets
another one does the seam make a difference (`body_append_seam`).

The pieces also say when a text is written as it is. None of them is empty, so where nothing becomes longer each piece
is its own character (`bodyFrom_cons_eq_self_iff`), and that leaves out exactly the characters with an escape and the
question marks that follow another one (`bodyFrom_eq_self_iff`).

A compiler that reads the literal does not only split the file into lines. Before that it joins lines, where a
backslash ends one (`joinContinued`). A literal is full of backslashes, but none of them ends its line.
-/

namespace ErrnoBindings.CLiteral

/-! ## Pieces -/

/-- The pieces of a text are the written forms of its characters, each with the bit for the character before it. -/
theorem bodyFrom_eq_flatten (b : Bool) (t : Text) :
    bodyFrom b t = (List.zipWith escape (b :: t.map (· == '?')) t).flatten := by
  induction t generalizing b with
  | nil => rfl
  | cons c cs ih =>
    rw [bodyFrom_cons, ih]
    rfl

/-- The bit that `bodyFrom` has when it has written a text, given the one that it started with. -/
def carried : Bool → Text → Bool
  | b, [] => b
  | _, c :: cs => carried (c == '?') cs

/-- Behind a text that is not empty, the bit is that of its last character. -/
theorem carried_cons (b : Bool) (c : Char) (cs : Text) :
    carried b (c :: cs) = ((c :: cs).getLast? == some '?') := by
  induction cs generalizing b c with
  | nil => rfl
  | cons d cs ih => exact ih (c == '?') d

theorem carried_false (s : Text) : carried false s = (s.getLast? == some '?') := by
  cases s with
  | nil => rfl
  | cons c cs => exact carried_cons false c cs

/-- Parts are written one after the other, the second with the bit that the first leaves. -/
theorem bodyFrom_append (b : Bool) (s t : Text) : bodyFrom b (s ++ t) = bodyFrom b s ++ bodyFrom (carried b s) t := by
  induction s generalizing b with
  | nil => rfl
  | cons c cs ih =>
    rw [List.cons_append, bodyFrom_cons, bodyFrom_cons, ih, List.append_assoc]
    rfl

/-! ## Seams -/

/-- A question mark in front of a text makes no difference to a text that does not begin with one. -/
theorem bodyFrom_true_of_head?_ne {t : Text} (h : t.head? ≠ some '?') : bodyFrom true t = body t := by
  cases t with
  | nil => rfl
  | cons c cs =>
    have hc : c ≠ '?' := fun hc => h (congrArg some hc)
    rw [body, bodyFrom_cons, bodyFrom_cons, escape_eq_of_ne hc]

/-- To a text that begins with one it adds a backslash, and nothing behind that first character changes. -/
theorem bodyFrom_true_of_head?_eq {t : Text} (h : t.head? = some '?') : bodyFrom true t = '\\' :: body t := by
  cases t with
  | nil => cases h
  | cons c cs =>
    cases h
    rfl

/-- **A text is written part by part, with one more backslash where question marks meet.** What is written between
the quotes of a literal is made of a piece for each character, which depends on the character and on whether the one
before it is a question mark. Wherever a text is cut in two, its parts are written as they are by themselves, and a
backslash stands between them exactly if the first ends and the second begins with a question mark. -/
theorem body_append_seam :
    (∀ t, encode t = ['"'] ++ body t ++ ['"']) ∧
      (∀ s t, body (s ++ t) =
        if s.getLast? = some '?' ∧ t.head? = some '?' then body s ++ ['\\'] ++ body t else body s ++ body t) ∧
      ∀ t, body t = (List.zipWith escape (false :: t.map (· == '?')) t).flatten := by
  refine ⟨fun t => rfl, fun s t => ?_, fun t => bodyFrom_eq_flatten false t⟩
  have happend : body (s ++ t) = body s ++ bodyFrom (s.getLast? == some '?') t := by
    rw [← carried_false]
    exact bodyFrom_append false s t
  rw [happend]
  by_cases hs : s.getLast? = some '?'
  · rw [beq_iff_eq.mpr hs]
    by_cases ht : t.head? = some '?'
    · rw [if_pos ⟨hs, ht⟩, bodyFrom_true_of_head?_eq ht, List.append_assoc]
      rfl
    · rw [if_neg fun h => ht h.2, bodyFrom_true_of_head?_ne ht]
  · rw [beq_eq_false_iff_ne.mpr hs, if_neg fun h => hs h.1]
    rfl

/-- A run of question marks, cut in the middle. -/
example : body "a??".toList ++ ['\\'] ++ body "?/b".toList = body "a???/b".toList := by decide

/-! ## Lines that are continued -/

/-- Joins lines: where a backslash ends a line, the next line goes on in its place. -/
def joinContinued : Text → Text
  | '\\' :: '\n' :: rest => joinContinued rest
  | c :: rest => c :: joinContinued rest
  | [] => []

/-- Where no newline follows, nothing is joined. -/
theorem joinContinued_cons {c : Char} {t : Text} (h : c = '\\' → t.head? ≠ some '\n') :
    joinContinued (c :: t) = c :: joinContinued t := by
  rw [joinContinued]
  rintro rest hc rfl
  exact h hc rfl

/-- A text without a newline that does not end in a backslash is left alone, whatever follows it. -/
theorem joinContinued_append {w : Text} (hw : '\n' ∉ w) (hlast : w.getLast? ≠ some '\\') (r : Text) :
    joinContinued (w ++ r) = w ++ joinContinued r := by
  induction w with
  | nil => rfl
  | cons c w ih =>
    obtain ⟨-, hw⟩ := not_or.mp fun h => hw (List.mem_cons.mpr h)
    cases w with
    | nil => exact joinContinued_cons fun hc => absurd (congrArg some hc) hlast
    | cons d w =>
      have hd : d ≠ '\n' := fun h => hw (h ▸ List.mem_cons_self ..)
      have hrest : joinContinued ((d :: w) ++ r) = (d :: w) ++ joinContinued r :=
        ih hw (by rwa [List.getLast?_cons_cons] at hlast)
      have hstep : joinContinued (c :: ((d :: w) ++ r)) = c :: joinContinued ((d :: w) ++ r) :=
        joinContinued_cons fun _ h => hd (Option.some.inj h)
      rw [List.cons_append, hstep, hrest]
      rfl

/-! ## Texts that stay as they are -/

theorem questionsApart_cons {c : Char} {t : Text} :
    QuestionsApart (c :: t) ↔ ¬ (c = '?' ∧ t.head? = some '?') ∧ QuestionsApart t := by
  cases t with
  | nil => simp [QuestionsApart]
  | cons d t =>
    rw [questionsApart_cons_cons, List.head?_cons, Option.some.injEq]

/-- A character is written as itself unless it has an escape, or is a question mark that follows another one. -/
theorem escape_eq_self_iff {b : Bool} {c : Char} :
    escape b c = [c] ↔ c ≠ '\\' ∧ c ≠ '"' ∧ isControl c = false ∧ ¬ (b = true ∧ c = '?') := by
  constructor
  · intro h
    refine ⟨?_, ?_, isControl_of_mem_escape (b := b) (h ▸ List.mem_singleton_self c), ?_⟩
    · rintro rfl
      cases h
    · rintro rfl
      cases h
    · rintro ⟨rfl, rfl⟩
      cases h
  · rintro ⟨hbackslash, hquote, hcontrol, hquestion⟩
    unfold escape
    split
    · exact absurd rfl hbackslash
    · exact absurd rfl hquote
    · exact absurd hcontrol (by decide)
    · exact absurd hcontrol (by decide)
    · exact absurd hcontrol (by decide)
    · exact if_neg fun hb => hquestion ⟨hb, rfl⟩
    · exact if_neg (by simp [hcontrol])

/-- No character is written as nothing, so nothing becomes shorter. -/
theorem length_le_length_bodyFrom (b : Bool) (t : Text) : t.length ≤ (bodyFrom b t).length := by
  induction t generalizing b with
  | nil => exact Nat.le_refl _
  | cons c cs ih =>
    have hpiece : 0 < (escape b c).length := List.length_pos_iff.mpr (escape_ne_nil b c)
    have hrest := ih (c == '?')
    rw [bodyFrom_cons, List.length_append, List.length_cons]
    omega

/-- A text is written unchanged only character by character. -/
theorem bodyFrom_cons_eq_self_iff {b : Bool} {c : Char} {cs : Text} :
    bodyFrom b (c :: cs) = c :: cs ↔ escape b c = [c] ∧ bodyFrom (c == '?') cs = cs := by
  constructor
  · intro h
    have hpiece : 0 < (escape b c).length := List.length_pos_iff.mpr (escape_ne_nil b c)
    have hrest := length_le_length_bodyFrom (c == '?') cs
    have hlength := congrArg List.length h
    rw [bodyFrom_cons, List.length_append, List.length_cons] at hlength
    -- the first piece has room for one character only
    have hone : (escape b c).length = [c].length := by
      rw [List.length_singleton]
      omega
    exact List.append_inj h hone
  · rintro ⟨hpiece, hrest⟩
    rw [bodyFrom_cons, hpiece, hrest]
    rfl

/-- A text is written unchanged exactly if no character of it has an escape, no question marks stand side by side in
it, and it does not bring one next to the one before it. -/
theorem bodyFrom_eq_self_iff {b : Bool} {t : Text} :
    bodyFrom b t = t ↔ ('\\' ∉ t ∧ '"' ∉ t ∧ (∀ c ∈ t, isControl c = false) ∧ QuestionsApart t) ∧
      ¬ (b = true ∧ t.head? = some '?') := by
  induction t generalizing b with
  | nil => simp [QuestionsApart]
  | cons c cs ih =>
    rw [bodyFrom_cons_eq_self_iff, escape_eq_self_iff, ih, questionsApart_cons, List.forall_mem_cons]
    simp only [List.mem_cons, not_or, List.head?_cons, Option.some.injEq, beq_iff_eq]
    constructor
    · rintro ⟨⟨hb, hq, hc, hbefore⟩, ⟨hbs, hqs, hcs, happart⟩, hseam⟩
      exact ⟨⟨⟨Ne.symm hb, hbs⟩, ⟨Ne.symm hq, hqs⟩, ⟨hc, hcs⟩, hseam, happart⟩, hbefore⟩
    · rintro ⟨⟨⟨hb, hbs⟩, ⟨hq, hqs⟩, ⟨hc, hcs⟩, hseam, happart⟩, hbefore⟩
      exact ⟨⟨Ne.symm hb, Ne.symm hq, hc, hbefore⟩, ⟨hbs, hqs, hcs, happart⟩, hseam⟩

/-- **A literal is safe where it stands, and nothing is escaped without need.** It has no control character, so it is
one line, whatever follows, and is not joined with the next; no two question marks stand side by side in it; it stands
between two double quotes; and what stands between them is the text itself exactly if the text has no backslash, no
double quote, no control character and no two question marks side by side. -/
theorem encode_safe (t : Text) :
    (∀ c ∈ encode t, isControl c = false) ∧
      (∀ rest, lines (encode t ++ '\n' :: rest) = encode t :: lines rest) ∧
      (∀ rest, joinContinued (encode t ++ rest) = encode t ++ joinContinued rest) ∧
      QuestionsApart (encode t) ∧
      (∃ inner, encode t = ['"'] ++ inner ++ ['"']) ∧
      (encode t = ['"'] ++ t ++ ['"'] ↔
        '\\' ∉ t ∧ '"' ∉ t ∧ (∀ c ∈ t, isControl c = false) ∧ QuestionsApart t) := by
  have hcontrol : ∀ c ∈ encode t, isControl c = false := fun c => isControl_of_mem_encode
  have hnewline : '\n' ∉ encode t := fun h => absurd (hcontrol _ h) (by decide)
  have hlast : (encode t).getLast? = some '"' := List.getLast?_concat
  have hline : IsLine (encode t) := ⟨hnewline, by rw [hlast]; decide⟩
  refine ⟨hcontrol, fun rest => lines_append_newline hline rest, fun rest => ?_, questionsApart_encode t,
    ⟨body t, rfl⟩, ?_⟩
  · exact joinContinued_append hnewline (by rw [hlast]; decide) rest
  · have hencode : encode t = ['"'] ++ body t ++ ['"'] := rfl
    rw [hencode, List.append_left_inj, List.append_right_inj, body, bodyFrom_eq_self_iff]
    exact and_iff_left fun h => absurd h.1 (by decide)

/-- A text that ends in a backslash and a newline, behind a bell and a run of question marks. -/
def unrulyText : Text := "\u0007??\\\n".toList

theorem encode_safe_unruly :
    '7' ∈ encode unrulyText ∧ isControl '7' = false ∧ QuestionsApart (encode unrulyText) ∧
      joinContinued (encode unrulyText ++ ['\\', '\n', ';']) = encode unrulyText ++ [';'] ∧
      encode unrulyText ≠ ['"'] ++ unrulyText ++ ['"'] ∧
      encode "où? là?".toList = ['"'] ++ "où? là?".toList ++ ['"'] := by
  obtain ⟨hcontrol, -, hjoin, happart, -, hescaped⟩ := encode_safe unrulyText
  obtain ⟨-, -, -, -, -, hplain⟩ := encode_safe "où? là?".toList
  have hmem : '7' ∈ encode unrulyText := by decide
  have hall : ("où? là?".toList.all fun c => !isControl c) = true := by decide
  refine ⟨hmem, hcontrol _ hmem, happart, hjoin _, fun h => ?_, ?_⟩
  · exact absurd (hescaped.mp h).2.2.2 (by decide)
  · exact hplain.mpr ⟨by decide, by decide, fun c hc => by simpa using List.all_eq_true.mp hall c hc, by decide⟩

end ErrnoBindings.CLiteral
