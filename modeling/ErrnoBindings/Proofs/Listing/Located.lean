import ErrnoBindings.Proofs.Listing.Spans

/-!
# The words that a cursor gives

A cursor at the start of a line is asked for one word after the other. It keeps two things, the text that is still to
be read and the octets that it has passed, and moves both by the same gap and the same word as long as it gives one.
Here it is said what all of its answers are (`locateWords_located`): first the words of the line, each with its
offset, and then none, however often it is asked again.

Which words these are, `Located` says without a cursor. A word stands where it can be extended on neither side, at an
offset that counts the octets in front of it (`Word.IsRunOf`); the words given are all of these, in the order in which
they stand; they are kept apart by blanks, and what lies outside of them is blank.

Everything is read off how a line is laid out. A word that is laid out stands between what is in front of it and what
is behind it (`Laid.exists_split`), and what is laid out on both sides of a word is laid out as a whole
(`Laid.append`), in no other way.
-/

namespace ErrnoBindings

/-! ## Asking again and again -/

namespace Cursor

/-- What a cursor answers when it has already been asked the given number of times. -/
def answer (c : Cursor) : Nat → Option Word
  | 0 => c.next.1
  | k + 1 => c.next.2.answer k

/-- A cursor that gives no word gives none ever after. -/
theorem answer_of_exhausted {c : Cursor} (h : c.next.1 = none) (k : Nat) : c.answer k = none := by
  induction k generalizing c with
  | zero => exact h
  | succ k ih => exact ih (next_of_exhausted h)

/-- A cursor gives the words as which the text before it is laid out, one after the other, and then no more. -/
theorem answer_of_laid {n : Nat} {line : Text} {ws : List Word} (h : Laid n line ws) (k : Nat) :
    answer ⟨line, n⟩ k = ws[k]? := by
  induction h generalizing k with
  | gap hg => rw [answer_of_exhausted (next_gap hg _), List.getElem?_nil]
  | word hg hw hend _ ih =>
    have hnext := next_append hg hw hend
    cases k with
    | zero =>
      rw [answer, hnext]
      rfl
    | succ k =>
      rw [answer, hnext]
      exact ih k

end Cursor

/-! ## Where a word stands -/

/-- A word behind the text begins there: the text is empty, or ends in a blank. -/
def BeginsWord (front : Text) : Prop := ∀ c, front.getLast? = some c → isBlank c = true

/-- A word stands in a line: as many octets before it as its offset says, and nothing but a blank beside it. -/
def Word.IsRunOf (w : Word) (line : Text) : Prop :=
  ∃ front back, line = front ++ (w.text ++ back) ∧ byteLength front = w.offset ∧ IsWord w.text ∧ BeginsWord front ∧
    EndsWord back

theorem IsGap.beginsWord {g : Text} (hg : IsGap g) : BeginsWord g := fun c h => hg c (List.mem_of_getLast? h)

/-- Whether a word begins behind a text is settled by the part of it that stands last. -/
theorem beginsWord_append {s t : Text} (ht : t ≠ []) : BeginsWord (s ++ t) ↔ BeginsWord t := by
  rw [BeginsWord, BeginsWord, List.getLast?_append, Option.or_of_isSome (List.getLast?_isSome.mpr ht)]

/-- A word that is laid out stands between what is in front of it and what is behind it, and what is behind it is laid
out as the words behind. -/
theorem Laid.exists_split {n : Nat} {text : Text} {us vs : List Word} {w : Word} (h : Laid n text (us ++ w :: vs)) :
    ∃ front back, text = front ++ (w.text ++ back) ∧ w.offset = n + byteLength front ∧ IsWord w.text ∧
      BeginsWord front ∧ EndsWord back ∧ Laid (w.offset + byteLength w.text) back vs := by
  induction us generalizing n text with
  | nil =>
    cases h with
    | word hg hw hend hrest => exact ⟨_, _, rfl, rfl, hw, hg.beginsWord, hend, hrest⟩
  | cons u us ih =>
    cases h with
    | @word _ g u rest _ hg hu hend hrest =>
      obtain ⟨front, back, rfl, hoffset, hw, hbegin, hback, hlaid⟩ := ih hrest
      -- the word before has ended, so something stands between the two
      have hne : front ≠ [] := by
        rintro rfl
        exact hw.not_endsWord back hend
      refine ⟨g ++ (u ++ front), back, by simp only [List.append_assoc], ?_, hw, ?_, hback, hlaid⟩
      · rw [hoffset, byteLength_append, byteLength_append]
        omega
      · rw [← List.append_assoc, beginsWord_append hne]
        exact hbegin

/-! ## Laying out part by part -/

/-- Every text is laid out as some words, whatever stands in front of it. -/
theorem exists_laid (n : Nat) (t : Text) : ∃ ws, Laid n t ws :=
  ⟨_, Cursor.laid_collect (c := ⟨t, n⟩) (Nat.le_refl _)⟩

/-- A gap in front of a text makes the first gap of the text longer. -/
theorem IsGap.laid_append {n : Nat} {g t : Text} {ws : List Word} (hg : IsGap g) (h : Laid (n + byteLength g) t ws) :
    Laid n (g ++ t) ws := by
  have happend : ∀ {g' : Text}, IsGap g' → IsGap (g ++ g') := fun hg' c hc =>
    (List.mem_append.mp hc).elim (hg c) (hg' c)
  cases h with
  | gap hg' => exact Laid.gap (happend hg')
  | @word _ g' w rest ws hg' hw hend hrest =>
    have hoffset : n + byteLength g + byteLength g' = n + byteLength (g ++ g') := by
      rw [byteLength_append, Nat.add_assoc]
    rw [hoffset] at hrest ⊢
    rw [← List.append_assoc]
    exact Laid.word (happend hg') hw hend hrest

/-- Where no word goes on from one text into the next, the two are laid out as their words one after the other. -/
theorem Laid.append {n : Nat} {s t : Text} {us ws : List Word} (hs : Laid n s us) (hbegin : BeginsWord s)
    (ht : Laid (n + byteLength s) t ws) : Laid n (s ++ t) (us ++ ws) := by
  induction hs with
  | gap hg => exact hg.laid_append ht
  | @word n g w rest us hg hw hend _ ih =>
    -- the first text does not end in the word, since a blank would have to stand there
    have hne : rest ≠ [] := by
      rintro rfl
      rw [List.append_nil, beginsWord_append hw.1] at hbegin
      obtain ⟨c, hc⟩ := Option.isSome_iff_exists.mp (List.getLast?_isSome.mpr hw.1)
      have hblank := hbegin c hc
      rw [hw.2 c (List.mem_of_getLast? hc)] at hblank
      cases hblank
    have hrest : BeginsWord rest := by
      rwa [← List.append_assoc, beginsWord_append hne] at hbegin
    have hend' : EndsWord (rest ++ t) := by
      intro c hc
      rw [List.head?_append, Option.or_of_isSome (List.isSome_head?.mpr hne)] at hc
      exact hend c hc
    have hoffset : n + byteLength (g ++ (w ++ rest)) = n + byteLength g + byteLength w + byteLength rest := by
      rw [byteLength_append, byteLength_append]
      omega
    rw [hoffset] at ht
    rw [List.append_assoc, List.append_assoc]
    exact Laid.word hg hw hend' (ih hrest ht)

/-- The words that are located in a line are those that stand in it. -/
theorem mem_locateWords_iff {line : Text} {w : Word} : w ∈ locateWords line ↔ w.IsRunOf line := by
  constructor
  · intro h
    obtain ⟨us, vs, hsplit⟩ := List.append_of_mem h
    obtain ⟨front, back, hline, hoffset, hw, hbegin, hend, -⟩ := (locateWords_eq_iff.mp hsplit).exists_split
    exact ⟨front, back, hline, by rw [hoffset, Nat.zero_add], hw, hbegin, hend⟩
  · rintro ⟨front, back, hline, hoffset, hw, hbegin, hend⟩
    obtain ⟨offset, text⟩ := w
    dsimp only at hline hoffset hw
    obtain ⟨us, hfront⟩ := exists_laid 0 front
    obtain ⟨vs, hback⟩ := exists_laid (byteLength front + byteLength text) back
    have hword : Laid (byteLength front) (text ++ back) (⟨byteLength front, text⟩ :: vs) :=
      Laid.word (g := []) (fun _ hc => absurd hc List.not_mem_nil) hw hend hback
    have hlaid : Laid 0 line (us ++ ⟨offset, text⟩ :: vs) := by
      rw [hline, ← hoffset]
      exact hfront.append hbegin (by rwa [Nat.zero_add])
    rw [locateWords_eq_iff.mpr hlaid]
    exact List.mem_append_right us (List.mem_cons_self ..)

/-! ## What lies between the words -/

/-- An octet of a text belongs to a blank. -/
def IsBlankAt (t : Text) (p : Nat) : Prop :=
  ∃ front c back, t = front ++ c :: back ∧ isBlank c = true ∧ byteLength front ≤ p ∧
    p < byteLength front + c.utf8Size

/-- A blank stays where it is when text is added behind it. -/
theorem IsBlankAt.append_left {s : Text} {p : Nat} (h : IsBlankAt s p) (t : Text) : IsBlankAt (s ++ t) p := by
  obtain ⟨front, c, back, rfl, hc, hleast, hgreatest⟩ := h
  exact ⟨front, c, back ++ t, by simp only [List.append_assoc, List.cons_append], hc, hleast, hgreatest⟩

/-- It moves by the octets that are added in front of it. -/
theorem IsBlankAt.append_right {t : Text} {p : Nat} (h : IsBlankAt t p) (s : Text) :
    IsBlankAt (s ++ t) (byteLength s + p) := by
  obtain ⟨front, c, back, rfl, hc, hleast, hgreatest⟩ := h
  refine ⟨s ++ front, c, back, by rw [List.append_assoc], hc, ?_, ?_⟩
  · rw [byteLength_append]
    omega
  · rw [byteLength_append]
    omega

/-- Every octet of a gap belongs to a blank. -/
theorem IsGap.isBlankAt {g : Text} (hg : IsGap g) {p : Nat} (hp : p < byteLength g) : IsBlankAt g p := by
  induction g generalizing p with
  | nil => cases hp
  | cons c cs ih =>
    by_cases hfirst : p < c.utf8Size
    · exact ⟨[], c, cs, rfl, hg c (List.mem_cons_self ..), Nat.zero_le _, by rw [byteLength_nil]; omega⟩
    · rw [byteLength_cons] at hp
      have hrest : IsBlankAt cs (p - c.utf8Size) := ih (fun d hd => hg d (List.mem_cons_of_mem _ hd)) (by omega)
      have hplace : byteLength [c] + (p - c.utf8Size) = p := by
        rw [byteLength_cons, byteLength_nil]
        omega
      rw [← hplace]
      exact hrest.append_right [c]

/-- What lies outside of the words as which a text is laid out is blank. -/
theorem Laid.isBlankAt {n : Nat} {text : Text} {ws : List Word} (h : Laid n text ws) {p : Nat}
    (hp : p < byteLength text)
    (houtside : ∀ w ∈ ws, n + p < w.offset ∨ w.offset + byteLength w.text ≤ n + p) : IsBlankAt text p := by
  induction h generalizing p with
  | gap hg => exact hg.isBlankAt hp
  | @word n g w rest ws hg _ _ _ ih =>
    have hword := houtside _ (List.mem_cons_self ..)
    rw [byteLength_append, byteLength_append] at hp
    dsimp only at hword
    rcases hword with hbefore | hbehind
    · exact (hg.isBlankAt (by omega)).append_left (w ++ rest)
    · obtain ⟨q, rfl⟩ : ∃ q, p = byteLength (g ++ w) + q := ⟨p - byteLength (g ++ w), by
        rw [byteLength_append]
        omega⟩
      rw [byteLength_append] at hp houtside
      have hrest : IsBlankAt rest q := by
        refine ih (by omega) fun v hv => ?_
        have hv := houtside v (List.mem_cons_of_mem _ hv)
        omega
      rw [← List.append_assoc]
      exact hrest.append_right (g ++ w)

/-! ## All of the words -/

/-- The words of a line, with the octets before each of them. -/
structure Located (line : Text) (ws : List Word) : Prop where
  /-- they are the words that stand in the line, and all of them -/
  runs : ∀ w, w ∈ ws ↔ w.IsRunOf line
  /-- they are given in the order in which they stand -/
  ascending : ws.Pairwise fun v w => v.offset < w.offset
  /-- each of them is the octets of the line from its offset on -/
  octets : ∀ w ∈ ws, ((Utf8.encode line).drop w.offset).take (Utf8.encode w.text).length = Utf8.encode w.text
  /-- between one and the next there are blanks, at least one, and nothing else -/
  apart : ∀ us v w vs, ws = us ++ v :: w :: vs → ∃ front gap back,
    line = front ++ (v.text ++ (gap ++ (w.text ++ back))) ∧ byteLength front = v.offset ∧ IsGap gap ∧ gap ≠ [] ∧
      v.offset + byteLength v.text + byteLength gap = w.offset
  /-- what lies outside of all of them is blank -/
  outside : ∀ p < (Utf8.encode line).length,
    (∀ w ∈ ws, p < w.offset ∨ w.offset + (Utf8.encode w.text).length ≤ p) → IsBlankAt line p

/-- The offsets of words that are laid out increase strictly. -/
theorem Laid.ascending {n : Nat} {text : Text} {ws : List Word} (h : Laid n text ws) :
    ws.Pairwise fun v w => v.offset < w.offset := by
  induction h with
  | gap _ => exact List.Pairwise.nil
  | @word n g w rest ws _ hw _ hrest ih =>
    refine List.pairwise_cons.mpr ⟨fun v hv => ?_, ih⟩
    obtain ⟨us, vs, rfl⟩ := List.append_of_mem hv
    obtain ⟨front, back, -, hoffset, -⟩ := hrest.exists_split
    have hpos := byteLength_pos hw.1
    dsimp only
    omega

/-- Words that are laid out one after the other have a gap between them. -/
theorem Laid.exists_gap {n : Nat} {text : Text} {us vs : List Word} {v w : Word}
    (h : Laid n text (us ++ v :: w :: vs)) :
    ∃ front gap back, text = front ++ (v.text ++ (gap ++ (w.text ++ back))) ∧ n + byteLength front = v.offset ∧
      IsGap gap ∧ gap ≠ [] ∧ v.offset + byteLength v.text + byteLength gap = w.offset := by
  obtain ⟨front, back, rfl, hoffset, -, -, hend, hbehind⟩ := h.exists_split
  cases hbehind with
  | @word _ gap w rest _ hgap hw _ _ =>
    have hne : gap ≠ [] := by
      rintro rfl
      exact hw.not_endsWord rest hend
    exact ⟨front, gap, rest, rfl, hoffset.symm, hgap, hne, rfl⟩

/-- A word that stands in a line is the octets of the line from its offset on. -/
theorem Word.IsRunOf.octets {line : Text} {w : Word} (h : w.IsRunOf line) :
    ((Utf8.encode line).drop w.offset).take (Utf8.encode w.text).length = Utf8.encode w.text := by
  obtain ⟨front, back, rfl, hoffset, -⟩ := h
  have hoctets := Span.octets_marking front w.text back
  rwa [Span.octets, Span.marking, hoffset, ← Utf8.length_encode] at hoctets

/-- The words that are located in a line are the words of the line. -/
theorem located_locateWords (line : Text) : Located line (locateWords line) := by
  have hlaid : Laid 0 line (locateWords line) := locateWords_eq_iff.mp rfl
  refine ⟨fun w => mem_locateWords_iff, hlaid.ascending, fun w hw => (mem_locateWords_iff.mp hw).octets, ?_, ?_⟩
  · intro us v w vs hws
    rw [hws] at hlaid
    obtain ⟨front, gap, back, hline, hoffset, hgap, hne, hnext⟩ := hlaid.exists_gap
    exact ⟨front, gap, back, hline, by rw [← hoffset, Nat.zero_add], hgap, hne, hnext⟩
  · intro p hp houtside
    rw [Utf8.length_encode] at hp
    refine hlaid.isBlankAt hp fun w hw => ?_
    have hw := houtside w hw
    rwa [Utf8.length_encode, ← Nat.zero_add p] at hw

/-- **A cursor gives the words of its line and then nothing more.** Asked again and again from the start of a line, it
answers with the words that are located in the line, one at a time, and with none from then on. These are the maximal
runs of the line, the same that a command line is split into, and each is given with the octets before it. -/
theorem locateWords_located (line : Text) :
    (∀ k, (Cursor.start line).answer k = (locateWords line)[k]?) ∧
      (locateWords line).map Word.text = words line ∧ Located line (locateWords line) := by
  refine ⟨fun k => ?_, map_text_locateWords line, located_locateWords line⟩
  exact Cursor.answer_of_laid (locateWords_eq_iff.mp rfl) k

/-- A blank of three octets, a letter of two and a blank of one stand before the second word. -/
example : (Cursor.start "\u3000É\t1 ".toList).answer 1 = some ⟨6, ['1']⟩ := by decide

end ErrnoBindings
