import ErrnoBindings.Text.Blank

/-!
# Words

A line of a listing, and a command line, is read as *words*: the maximal runs of characters that are not blank.
There are two ways to get at them here.

* `words` gives the runs alone, by recursion on the text.
* A `Cursor` walks along a text and gives one word at a time, with the octets that come before it, so that a
  diagnostic can point at a word. `locateWords` collects what a cursor gives from the start of a line.

A cursor that has given its last word keeps the blanks before it and never gives another one
(`Cursor.next_of_exhausted`), and one that gives a word has a shorter text before it (`Cursor.length_next_lt`), which
is why a line's length is fuel enough for `locateWords`.
-/

namespace ErrnoBindings

/-- A text that is one word: it has a character, and no blank. -/
def IsWord (w : Text) : Prop := w ≠ [] ∧ ∀ c ∈ w, isBlank c = false

instance (w : Text) : Decidable (IsWord w) := inferInstanceAs (Decidable (_ ∧ _))

/-- Whether a text is one word can be seen from its characters one by one. -/
theorem isWord_of_all {w : Text} (hne : w ≠ []) (h : w.all (fun c => !isBlank c) = true) : IsWord w := by
  refine ⟨hne, fun c hc => ?_⟩
  simpa using List.all_eq_true.mp h c hc

/-! ## Runs -/

/-- The maximal runs of characters that are not blank, in order. A character that is not blank joins the run
that follows it directly, or is a run of its own. -/
def words : Text → List Text
  | [] => []
  | c :: cs =>
    if isBlank c then words cs
    else if cs.head?.any (fun d => !isBlank d) then attach c (words cs)
    else [c] :: words cs

@[simp] theorem words_nil : words [] = [] := rfl

theorem words_cons_blank {c : Char} (h : isBlank c = true) (cs : Text) : words (c :: cs) = words cs := by
  simp [words, h]

/-! ## Cursors -/

/-- A word where it stands in a text. -/
structure Word where
  /-- the octets of the text that come before the word -/
  offset : Nat
  /-- the word itself -/
  text : Text
  deriving DecidableEq, Repr

/-- A place in a text: what is still to be read, and the octets already passed. -/
structure Cursor where
  /-- the text still to be read -/
  rest : Text
  /-- the octets passed so far -/
  offset : Nat
  deriving DecidableEq, Repr

namespace Cursor

/-- A cursor before the first character of a text. -/
def start (t : Text) : Cursor := ⟨t, 0⟩

/-- The cursor behind the blanks that it stands before. -/
def skip (c : Cursor) : Cursor :=
  ⟨c.rest.dropWhile isBlank, c.offset + byteLength (c.rest.takeWhile isBlank)⟩

/-- The characters up to the next blank. -/
def run (c : Cursor) : Text := c.rest.takeWhile fun d => !isBlank d

/-- The cursor behind the run that it stands before. -/
def pass (c : Cursor) : Cursor :=
  ⟨c.rest.dropWhile fun d => !isBlank d, c.offset + byteLength c.run⟩

/-- The next word, if there is one, and the cursor behind it. Blanks in front of the word are passed first. Where
there are nothing but blanks, their octets are counted, and they stay before the cursor. -/
def next (c : Cursor) : Option Word × Cursor :=
  if c.skip.run = [] then (none, ⟨c.rest, c.skip.offset⟩) else (some ⟨c.skip.offset, c.skip.run⟩, c.skip.pass)

/-- The words that at most `n` calls of `next` give. -/
def collect : Nat → Cursor → List Word
  | 0, _ => []
  | n + 1, c =>
    match c.next with
    | (none, _) => []
    | (some w, c') => w :: collect n c'

theorem run_append_pass (c : Cursor) : c.run ++ c.pass.rest = c.rest :=
  List.takeWhile_append_dropWhile

/-- A cursor that gave no word gives none when it is asked again, though more octets are counted each time. -/
theorem next_of_exhausted {c : Cursor} (h : c.next.1 = none) : c.next.2.next.1 = none := by
  by_cases hrun : c.skip.run = []
  · have hnext : c.next = (none, ⟨c.rest, c.skip.offset⟩) := if_pos hrun
    -- whether there is a run does not depend on the octets that have been counted
    have hagain : (⟨c.rest, c.skip.offset⟩ : Cursor).skip.run = [] := hrun
    rw [hnext, next, if_pos hagain]
  · rw [next, if_neg hrun] at h
    cases h

/-- A word that a cursor gives is not empty. -/
theorem text_ne_nil_of_next {c c' : Cursor} {w : Word} (h : c.next = (some w, c')) : w.text ≠ [] := by
  unfold next at h
  split at h
  · cases h
  · next hrun =>
    cases h
    exact hrun

/-- What a cursor gives is a word. -/
theorem isWord_of_next {c c' : Cursor} {w : Word} (h : c.next = (some w, c')) : IsWord w.text := by
  refine ⟨text_ne_nil_of_next h, ?_⟩
  unfold next at h
  split at h
  · cases h
  · cases h
    intro d hd
    have hall : c.skip.run.all (fun d => !isBlank d) = true := List.all_takeWhile
    simpa using List.all_eq_true.mp hall d hd

/-- Every word that is collected is a word. -/
theorem isWord_of_mem_collect {n : Nat} {c : Cursor} {w : Word} (h : w ∈ c.collect n) : IsWord w.text := by
  induction n generalizing c with
  | zero => cases h
  | succ n ih =>
    unfold collect at h
    split at h
    · cases h
    · next hnext =>
      rcases List.mem_cons.mp h with rfl | h
      · exact isWord_of_next hnext
      · exact ih h

/-- A cursor that gives a word has less text before it afterwards. -/
theorem length_next_lt {c c' : Cursor} {w : Word} (h : c.next = (some w, c')) :
    c'.rest.length < c.rest.length := by
  have hskip : c.skip.rest.length ≤ c.rest.length := by
    have := congrArg List.length (List.takeWhile_append_dropWhile (p := isBlank) (l := c.rest))
    simp only [List.length_append] at this
    simp only [skip]
    omega
  have hrun := congrArg List.length (run_append_pass c.skip)
  unfold next at h
  split at h
  · cases h
  · next hne =>
    cases h
    have := List.length_pos_iff.2 hne
    simp only [List.length_append] at hrun
    omega

end Cursor

/-- The words of a line, each with the octets before it. A line has no more words than characters, so its length
is fuel enough. -/
def locateWords (line : Text) : List Word := (Cursor.start line).collect line.length

end ErrnoBindings
