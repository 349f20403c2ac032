import ErrnoBindings.Text.Lines
import ErrnoBindings.Text.Numeral
import ErrnoBindings.Text.Words

/-!
# Words and the spaces between them

A line is read as its words, and words are put together with single spaces. Here the two are compared.

* The words that a cursor collects from a line are the maximal runs of the line (`map_text_locateWords`).
* A word ends where a blank follows it, or nothing, and at no other place (`words_append_of_isWord`). Words that
  are joined by single spaces are therefore taken apart again (`words_joinWords`).
* What is joined is one line, whatever the words are (`isLine_joinWords`).

The numeral of a value is one word (`isWord_print`).
-/

namespace ErrnoBindings

/-! ## Where a word ends -/

/-- A word in front of the text ends there: the text is empty, or starts with a blank. -/
def EndsWord (rest : Text) : Prop := ∀ c, rest.head? = some c → isBlank c = true

theorem endsWord_nil : EndsWord [] := fun _ h => by cases h

theorem endsWord_space (rest : Text) : EndsWord (' ' :: rest) := by
  intro c h
  cases h
  exact isBlank_space

/-- A character that is not blank, with the end of a word behind it, is a word by itself. -/
theorem words_cons_of_endsWord {c : Char} {cs : Text} (hc : isBlank c = false) (hcs : EndsWord cs) :
    words (c :: cs) = [c] :: words cs := by
  have hany : cs.head?.any (fun d => !isBlank d) = false := by
    cases cs with
    | nil => rfl
    | cons d ds => simp [hcs d rfl]
  simp [words, hc, hany]

/-- A character that is not blank belongs to the word that starts behind it. -/
theorem words_cons_cons {c d : Char} {cs : Text} (hc : isBlank c = false) (hd : isBlank d = false) :
    words (c :: d :: cs) = attach c (words (d :: cs)) := by
  rw [words]
  simp [hc, hd]

/-- A word is read as far as it goes, if it ends where the rest of the text begins. -/
theorem words_append_of_isWord {w rest : Text} (hw : IsWord w) (hrest : EndsWord rest) :
    words (w ++ rest) = w :: words rest := by
  obtain ⟨hne, hsolid⟩ := hw
  induction w with
  | nil => exact absurd rfl hne
  | cons c w ih =>
    have hc : isBlank c = false := hsolid c (List.mem_cons_self ..)
    cases w with
    | nil => exact words_cons_of_endsWord hc hrest
    | cons d w =>
      have hd : isBlank d = false := hsolid d (by simp)
      have hread := ih (List.cons_ne_nil d w) fun b hb => hsolid b (List.mem_cons_of_mem _ hb)
      rw [List.cons_append] at hread ⊢
      rw [List.cons_append, words_cons_cons hc hd, hread]
      rfl

/-! ## What a cursor collects -/

/-- Blanks in front of a text make no word. -/
theorem words_dropWhile_isBlank (t : Text) : words (t.dropWhile isBlank) = words t := by
  induction t with
  | nil => rfl
  | cons c t ih =>
    by_cases hc : isBlank c = true
    · rw [List.dropWhile_cons_of_pos hc, words_cons_blank hc, ih]
    · rw [List.dropWhile_cons_of_neg hc]

/-- Behind the run at its beginning, a text goes on with a blank or ends. -/
theorem endsWord_dropWhile (t : Text) : EndsWord (t.dropWhile fun d => !isBlank d) := by
  intro c h
  have hstop := List.head?_dropWhile_not (p := fun d => !isBlank d) t
  rw [h] at hstop
  simpa using hstop

namespace Cursor

/-- A cursor that gives a word gives the first word of the text before it, and goes on with the others. -/
theorem words_of_next {c c' : Cursor} {w : Word} (h : c.next = (some w, c')) :
    words c.rest = w.text :: words c'.rest := by
  have hword := isWord_of_next h
  unfold next at h
  split at h
  · cases h
  · cases h
    calc words c.rest = words c.skip.rest := (words_dropWhile_isBlank c.rest).symm
      _ = words (c.skip.run ++ c.skip.pass.rest) := by rw [run_append_pass]
      _ = c.skip.run :: words c.skip.pass.rest := words_append_of_isWord hword (endsWord_dropWhile _)

/-- A cursor that gives no word has nothing but blanks before it. -/
theorem dropWhile_of_next_none {c c' : Cursor} (h : c.next = (none, c')) : c.rest.dropWhile isBlank = [] := by
  unfold next at h
  split at h
  · next hrun =>
    -- what the blanks leave starts with no blank, and an empty run says that it starts with nothing else either
    cases hrest : c.rest.dropWhile isBlank with
    | nil => rfl
    | cons d ds =>
      have hd := List.head?_dropWhile_not (p := isBlank) c.rest
      rw [hrest] at hd
      simp only [run, skip, hrest] at hrun
      simp [show isBlank d = false by simpa using hd] at hrun
  · cases h

/-- A cursor that gives no word has none before it. -/
theorem words_of_next_none {c c' : Cursor} (h : c.next = (none, c')) : words c.rest = [] := by
  rw [← words_dropWhile_isBlank, dropWhile_of_next_none h]
  rfl

/-- With fuel for every character before it, a cursor collects the words before it. -/
theorem map_text_collect {n : Nat} {c : Cursor} (h : c.rest.length ≤ n) :
    (c.collect n).map Word.text = words c.rest := by
  induction n generalizing c with
  | zero =>
    rw [List.length_eq_zero_iff.mp (Nat.le_zero.mp h)]
    rfl
  | succ n ih =>
    rw [collect]
    split
    · next hnext => exact (words_of_next_none hnext).symm
    · next w c' hnext =>
      have hshorter := length_next_lt hnext
      rw [List.map_cons, ih (by omega), words_of_next hnext]

end Cursor

/-- The words of a line are its maximal runs. -/
theorem map_text_locateWords (line : Text) : (locateWords line).map Word.text = words line :=
  Cursor.map_text_collect (Nat.le_refl _)

/-- The runs of a text are words. -/
theorem isWord_of_mem_words {t w : Text} (h : w ∈ words t) : IsWord w := by
  rw [← map_text_locateWords] at h
  obtain ⟨v, hv, rfl⟩ := List.mem_map.mp h
  exact Cursor.isWord_of_mem_collect hv

/-! ## Words that are joined -/

/-- Words that are joined by single spaces are taken apart again. -/
theorem words_joinWords {ws : List Text} (h : ∀ w ∈ ws, IsWord w) : words (joinWords ws) = ws := by
  induction ws with
  | nil => rfl
  | cons w ws ih =>
    have hw : IsWord w := h w (List.mem_cons_self ..)
    cases ws with
    | nil =>
      have halone := words_append_of_isWord hw endsWord_nil
      rw [joinWords_singleton]
      rwa [List.append_nil] at halone
    | cons v ws =>
      rw [joinWords_cons_cons, words_append_of_isWord hw (endsWord_space _), words_cons_blank isBlank_space]
      rw [ih fun u hu => h u (List.mem_cons_of_mem _ hu)]

/-- Where there is a word, something is joined. -/
theorem joinWords_ne_nil {ws : List Text} (h : ∀ w ∈ ws, IsWord w) (hne : ws ≠ []) : joinWords ws ≠ [] := by
  intro hnil
  have hread := words_joinWords h
  rw [hnil] at hread
  exact hne hread.symm

/-- A word is one line. -/
theorem IsWord.isLine {w : Text} (h : IsWord w) : IsLine w := by
  constructor
  · intro hmem
    have := h.2 _ hmem
    simp at this
  · intro hlast
    have := h.2 _ (List.mem_of_getLast? hlast)
    simp at this

/-- Words that are joined are one line. -/
theorem isLine_joinWords {ws : List Text} (h : ∀ w ∈ ws, IsWord w) : IsLine (joinWords ws) := by
  induction ws with
  | nil => exact ⟨List.not_mem_nil, by simp⟩
  | cons w ws ih =>
    have hw : IsWord w := h w (List.mem_cons_self ..)
    have hws : ∀ u ∈ ws, IsWord u := fun u hu => h u (List.mem_cons_of_mem _ hu)
    cases ws with
    | nil =>
      rw [joinWords_singleton]
      exact hw.isLine
    | cons v ws =>
      have hrest : joinWords (v :: ws) ≠ [] := joinWords_ne_nil hws (List.cons_ne_nil v ws)
      have hspace : IsLine ([' '] ++ joinWords (v :: ws)) := (ih hws).append (by decide) hrest
      rw [joinWords_cons_cons]
      exact hspace.append hw.isLine.1 (by simp)

/-! ## Numerals -/

theorem isBlank_of_isDigit {c : Char} (h : c.isDigit = true) : isBlank c = false := by
  obtain ⟨hleast, hgreatest⟩ := Char.isDigit_iff_toNat.mp h
  have hzero : '0'.toNat = 48 := rfl
  have hnine : '9'.toNat = 57 := rfl
  simp only [isBlank, blankRanges, List.any_cons, List.any_nil, Bool.or_false, Bool.or_eq_false_iff,
    Bool.and_eq_false_iff, decide_eq_false_iff_not]
  omega

/-- The numeral of a value is one word. -/
theorem isWord_print (v : Int64) : IsWord (Numeral.print v) := by
  have hdigits : ∀ n, ∀ c ∈ decimal n, isBlank c = false := fun n c hc =>
    isBlank_of_isDigit (isDigit_of_mem_decimal hc)
  rw [Numeral.print]
  split
  · refine ⟨List.cons_ne_nil _ _, fun c hc => ?_⟩
    rcases List.mem_cons.mp hc with rfl | hc
    · decide
    · exact hdigits _ c hc
  · exact ⟨decimal_ne_nil _, hdigits _⟩

end ErrnoBindings
