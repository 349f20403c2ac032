import ErrnoBindings.Proofs.Text.Words
import Mathlib.Data.List.TakeWhile

/-!
# Where the words of a line lie

A line is gaps and words by turns. A *gap* is a stretch of blanks, and may be empty at either end of the line. A word
goes as far as it can: a blank follows it, or the line ends. Between two words there is therefore always a blank, and
the words of a line are its maximal runs of characters that are not blank. `Laid` says all this of a text and of words
that are given with the octets before them, and says nothing about how the words are found.

A cursor finds them. Each step of it passes one gap and one word (`Cursor.laid_of_next`), and wherever a line is laid
out it takes exactly that step (`Cursor.next_append`). Hence every line is laid out in one way and no other
(`locateWords_eq_iff`). `Runs` is the same relation without the octets, and the maximal runs of a line are its `words`
(`runs_iff`).
-/

namespace ErrnoBindings

/-- A stretch of blanks, possibly of none. -/
def IsGap (g : Text) : Prop := ∀ c ∈ g, isBlank c = true

instance (g : Text) : Decidable (IsGap g) := inferInstanceAs (Decidable (∀ c ∈ g, isBlank c = true))

/-- A text with `n` octets in front of it is laid out as words, each of which is given with the octets before it. -/
inductive Laid : Nat → Text → List Word → Prop where
  /-- a gap has no word -/
  | gap {n : Nat} {g : Text} : IsGap g → Laid n g []
  /-- a gap, a word that ends where the rest begins, and the rest -/
  | word {n : Nat} {g w rest : Text} {ws : List Word} : IsGap g → IsWord w → EndsWord rest →
      Laid (n + byteLength g + byteLength w) rest ws → Laid n (g ++ (w ++ rest)) (⟨n + byteLength g, w⟩ :: ws)

/-- The maximal runs of characters that are not blank, in order. -/
def Runs (line : Text) (ts : List Text) : Prop := ∃ ws, Laid 0 line ws ∧ ws.map Word.text = ts

/-! ## Gaps -/

theorem isGap_takeWhile (t : Text) : IsGap (t.takeWhile isBlank) := by
  intro c hc
  exact List.all_eq_true.mp List.all_takeWhile c hc

/-- A text has no word exactly when it is a gap. -/
theorem words_eq_nil_iff {t : Text} : words t = [] ↔ IsGap t := by
  induction t with
  | nil => simp [IsGap]
  | cons c t ih =>
    by_cases hc : isBlank c = true
    · rw [words_cons_blank hc, ih]
      simp [IsGap, hc]
    · have hne : words (c :: t) ≠ [] := by
        rw [words, if_neg hc]
        split
        · exact attach_ne_nil c (words t)
        · exact List.cons_ne_nil _ _
      exact ⟨fun h => absurd h hne, fun h => absurd (h c (List.mem_cons_self ..)) hc⟩

/-- A gap ends the word in front of it. -/
theorem IsGap.endsWord {g : Text} (hg : IsGap g) : EndsWord g := fun c h => hg c (List.mem_of_head? h)

/-- A gap behind a text makes no word, and changes none. -/
theorem words_append_gap {g : Text} (hg : IsGap g) (t : Text) : words (t ++ g) = words t := by
  induction t with
  | nil => exact words_eq_nil_iff.mpr hg
  | cons c t ih =>
    by_cases hc : isBlank c = true
    · rw [List.cons_append, words_cons_blank hc, words_cons_blank hc, ih]
    · rw [Bool.not_eq_true] at hc
      cases t with
      | nil =>
        rw [List.singleton_append, words_cons_of_endsWord hc hg.endsWord, words_cons_of_endsWord hc endsWord_nil,
          words_eq_nil_iff.mpr hg, words_nil]
      | cons d t =>
        rw [List.cons_append] at ih ⊢
        rw [List.cons_append]
        by_cases hd : isBlank d = true
        · -- the word in front of this blank ends, whatever stands behind the blank
          have hend : ∀ ds, EndsWord (d :: ds) := fun ds e he => by
            cases he
            exact hd
          rw [words_cons_of_endsWord hc (hend _), words_cons_of_endsWord hc (hend _), ih]
        · rw [Bool.not_eq_true] at hd
          rw [words_cons_cons hc hd, words_cons_cons hc hd, ih]

/-- A gap in front of a text is passed, whatever follows. -/
theorem IsGap.takeWhile_append {g : Text} (hg : IsGap g) (t : Text) :
    (g ++ t).takeWhile isBlank = g ++ t.takeWhile isBlank := List.takeWhile_append_of_pos hg

theorem IsGap.dropWhile_append {g : Text} (hg : IsGap g) (t : Text) :
    (g ++ t).dropWhile isBlank = t.dropWhile isBlank := List.dropWhile_append_of_pos hg

/-- In front of a word there is no blank to pass. -/
theorem IsWord.takeWhile_isBlank {w : Text} (hw : IsWord w) (rest : Text) : (w ++ rest).takeWhile isBlank = [] := by
  obtain ⟨hne, hsolid⟩ := hw
  obtain ⟨c, cs, rfl⟩ := List.exists_cons_of_ne_nil hne
  simp [hsolid c (List.mem_cons_self ..)]

theorem IsWord.dropWhile_isBlank {w : Text} (hw : IsWord w) (rest : Text) :
    (w ++ rest).dropWhile isBlank = w ++ rest := by
  obtain ⟨hne, hsolid⟩ := hw
  obtain ⟨c, cs, rfl⟩ := List.exists_cons_of_ne_nil hne
  simp [hsolid c (List.mem_cons_self ..)]

/-- Where a word ends there is nothing left of it. -/
theorem EndsWord.takeWhile {rest : Text} (h : EndsWord rest) : (rest.takeWhile fun c => !isBlank c) = [] := by
  cases rest with
  | nil => rfl
  | cons c cs => simp [h c rfl]

theorem EndsWord.dropWhile {rest : Text} (h : EndsWord rest) : (rest.dropWhile fun c => !isBlank c) = rest := by
  cases rest with
  | nil => rfl
  | cons c cs => simp [h c rfl]

/-- What begins with a word ends no other. -/
theorem IsWord.not_endsWord {w : Text} (hw : IsWord w) (rest : Text) : ¬ EndsWord (w ++ rest) := by
  intro hend
  obtain ⟨c, cs, rfl⟩ := List.exists_cons_of_ne_nil hw.1
  have hblank := hend c rfl
  rw [hw.2 c (List.mem_cons_self ..)] at hblank
  cases hblank

/-- A word is taken as far as it goes. -/
theorem IsWord.takeWhile_append {w rest : Text} (hw : IsWord w) (hrest : EndsWord rest) :
    ((w ++ rest).takeWhile fun c => !isBlank c) = w := by
  have hsolid : ∀ c ∈ w, (!isBlank c) = true := fun c hc => by simp [hw.2 c hc]
  rw [List.takeWhile_append_of_pos hsolid, hrest.takeWhile, List.append_nil]

theorem IsWord.dropWhile_append {w rest : Text} (hw : IsWord w) (hrest : EndsWord rest) :
    ((w ++ rest).dropWhile fun c => !isBlank c) = rest := by
  have hsolid : ∀ c ∈ w, (!isBlank c) = true := fun c hc => by simp [hw.2 c hc]
  rw [List.dropWhile_append_of_pos hsolid, hrest.dropWhile]

/-! ## The steps of a cursor -/

namespace Cursor

/-- A cursor that gives a word has passed a gap and that word, and stands where the word ends. -/
theorem next_eq_some {c c' : Cursor} {w : Word} (h : c.next = (some w, c')) :
    ∃ g, IsGap g ∧ c.rest = g ++ (w.text ++ c'.rest) ∧ EndsWord c'.rest ∧ w.offset = c.offset + byteLength g ∧
      c'.offset = c.offset + byteLength g + byteLength w.text := by
  unfold next at h
  split at h
  · cases h
  · cases h
    refine ⟨c.rest.takeWhile isBlank, isGap_takeWhile c.rest, ?_, endsWord_dropWhile _, rfl, rfl⟩
    rw [run_append_pass]
    exact List.takeWhile_append_dropWhile.symm

/-- A cursor that gives no word stands before a gap. -/
theorem isGap_of_next_none {c c' : Cursor} (h : c.next = (none, c')) : IsGap c.rest :=
  List.dropWhile_eq_nil_iff.mp (dropWhile_of_next_none h)

/-- What lies behind the word that a cursor gives is laid out with that word in front. -/
theorem laid_of_next {c c' : Cursor} {w : Word} {ws : List Word} (h : c.next = (some w, c'))
    (hrest : Laid c'.offset c'.rest ws) : Laid c.offset c.rest (w :: ws) := by
  obtain ⟨g, hg, htext, hend, hoffset, hoffset'⟩ := next_eq_some h
  obtain ⟨offset, text⟩ := w
  dsimp only at htext hoffset hoffset'
  rw [hoffset'] at hrest
  rw [htext, hoffset]
  exact Laid.word hg (isWord_of_next h) hend hrest

/-- Where a gap, a word and the end of that word follow each other, a cursor gives that word. -/
theorem next_append {g w rest : Text} (hg : IsGap g) (hw : IsWord w) (hend : EndsWord rest) (n : Nat) :
    next ⟨g ++ (w ++ rest), n⟩ =
      (some ⟨n + byteLength g, w⟩, ⟨rest, n + byteLength g + byteLength w⟩) := by
  have hskip : skip ⟨g ++ (w ++ rest), n⟩ = ⟨w ++ rest, n + byteLength g⟩ := by
    simp only [skip, hg.dropWhile_append, hg.takeWhile_append, hw.dropWhile_isBlank, hw.takeWhile_isBlank,
      List.append_nil]
  have hrun : run ⟨w ++ rest, n + byteLength g⟩ = w := hw.takeWhile_append hend
  have hpass : pass ⟨w ++ rest, n + byteLength g⟩ = ⟨rest, n + byteLength g + byteLength w⟩ := by
    simp only [pass, hrun, hw.dropWhile_append hend]
  rw [next, hskip, hrun, hpass, if_neg hw.1]

/-- Before a gap a cursor gives no word. -/
theorem next_gap {g : Text} (hg : IsGap g) (n : Nat) : (next ⟨g, n⟩).1 = none := by
  have hrest : g.dropWhile isBlank = [] := List.dropWhile_eq_nil_iff.mpr hg
  have hrun : (skip ⟨g, n⟩).run = [] := by
    simp only [run, skip, hrest, List.takeWhile_nil]
  rw [next, if_pos hrun]

/-- With fuel for every character before it, a cursor collects words as which the text is laid out. -/
theorem laid_collect {k : Nat} {c : Cursor} (h : c.rest.length ≤ k) : Laid c.offset c.rest (c.collect k) := by
  induction k generalizing c with
  | zero =>
    rw [List.length_eq_zero_iff.mp (Nat.le_zero.mp h)]
    exact Laid.gap fun _ hd => absurd hd List.not_mem_nil
  | succ k ih =>
    rw [collect]
    split
    · next hnext => exact Laid.gap (isGap_of_next_none hnext)
    · next w c' hnext =>
      have hshorter := length_next_lt hnext
      exact laid_of_next hnext (ih (by omega))

/-- And it collects no others. -/
theorem collect_of_laid {n k : Nat} {line : Text} {ws : List Word} (h : Laid n line ws) (hk : line.length ≤ k) :
    collect k ⟨line, n⟩ = ws := by
  induction h generalizing k with
  | @gap n g hg =>
    cases k with
    | zero => rfl
    | succ k =>
      rw [collect]
      split
      · rfl
      · next hnext =>
        have hnone := next_gap hg n
        rw [hnext] at hnone
        cases hnone
  | @word n g w rest ws hg hw hend _ ih =>
    have hpos : 0 < w.length := List.length_pos_iff.mpr hw.1
    simp only [List.length_append] at hk
    obtain ⟨k, rfl⟩ : ∃ j, k = j + 1 := ⟨k - 1, by omega⟩
    rw [collect, next_append hg hw hend]
    dsimp only
    rw [ih (by omega)]

end Cursor

/-! ## The words of a line -/

/-- A line is laid out as the words that are located in it, and as no others. -/
theorem locateWords_eq_iff {line : Text} {ws : List Word} : locateWords line = ws ↔ Laid 0 line ws := by
  constructor
  · rintro rfl
    exact Cursor.laid_collect (c := Cursor.start line) (Nat.le_refl _)
  · intro h
    exact Cursor.collect_of_laid h (Nat.le_refl _)

/-- The maximal runs of a line are its words. -/
theorem runs_iff {line : Text} {ts : List Text} : Runs line ts ↔ ts = words line := by
  rw [Runs, ← map_text_locateWords]
  constructor
  · rintro ⟨ws, hlaid, rfl⟩
    rw [locateWords_eq_iff.mpr hlaid]
  · rintro rfl
    exact ⟨locateWords line, locateWords_eq_iff.mp rfl, rfl⟩

end ErrnoBindings
