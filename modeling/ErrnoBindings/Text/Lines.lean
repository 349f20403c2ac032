import ErrnoBindings.Text.Basic

/-!
# Lines

A listing is read line by line. A newline ends a line and is not part of it; one carriage return directly before
that newline goes with it, so that a listing with `CR LF` ends reads as the same listing. A carriage return
anywhere else belongs to its line, in particular one at the very end of a text whose last line has no newline.
A text that ends in a newline has no empty line behind it.
-/

namespace ErrnoBindings

/-- The lines of a text, without their ends. -/
def lines : Text → List Text
  | [] => []
  | '\n' :: rest => [] :: lines rest
  | '\r' :: '\n' :: rest => [] :: lines rest
  | c :: rest => attach c (lines rest)

@[simp] theorem lines_nil : lines [] = [] := by simp [lines]

@[simp] theorem lines_newline (rest : Text) : lines ('\n' :: rest) = [] :: lines rest := by simp [lines]

@[simp] theorem lines_return_newline (rest : Text) : lines ('\r' :: '\n' :: rest) = [] :: lines rest := by
  simp [lines]

/-- A character that ends no line belongs to the line that follows it. -/
theorem lines_cons {c : Char} {rest : Text} (hn : c ≠ '\n') (hr : c = '\r' → rest.head? ≠ some '\n') :
    lines (c :: rest) = attach c (lines rest) := by
  rw [lines]
  · exact hn
  · intro tail hc hrest
    subst hrest
    exact hr hc rfl

/-- A text with at least one character has at least one line. -/
theorem lines_ne_nil {t : Text} (h : t ≠ []) : lines t ≠ [] := by
  fun_cases lines t
  · exact absurd rfl h
  · exact List.cons_ne_nil _ _
  · exact List.cons_ne_nil _ _
  · exact attach_ne_nil _ _

/-! ## Texts that are put together -/

/-- A text whose last line has its newline: it is empty, or it ends in a newline. -/
def Terminated (t : Text) : Prop := t = [] ∨ t.getLast? = some '\n'

instance (t : Text) : Decidable (Terminated t) := inferInstanceAs (Decidable (_ ∨ _))

@[simp] theorem terminated_nil : Terminated [] := Or.inl rfl

/-- Whether a text is terminated is settled by what stands behind its first character, if anything does. -/
theorem terminated_cons {c : Char} {t : Text} : Terminated (c :: t) ↔ Terminated t ∧ (t = [] → c = '\n') := by
  cases t with
  | nil => simp [Terminated]
  | cons d t => simp [Terminated]

/-- A text behind one whose last line has its newline begins a line of its own. -/
theorem lines_append {a : Text} (ha : Terminated a) (b : Text) : lines (a ++ b) = lines a ++ lines b := by
  fun_induction lines a with
  | case1 => rfl
  | case2 rest ih =>
    obtain ⟨hrest, -⟩ := terminated_cons.mp ha
    rw [List.cons_append, lines_newline, ih hrest, List.cons_append]
  | case3 rest ih =>
    obtain ⟨hbehind, -⟩ := terminated_cons.mp ha
    obtain ⟨hrest, -⟩ := terminated_cons.mp hbehind
    rw [List.cons_append, List.cons_append, lines_return_newline, ih hrest, List.cons_append]
  | case4 c rest hn hr ih =>
    obtain ⟨hrest, hlast⟩ := terminated_cons.mp ha
    have hne : rest ≠ [] := fun h => hn (hlast h)
    -- the newline that would go with a carriage return stands in the first text, so the second does not matter
    have hhead : c = '\r' → (rest ++ b).head? ≠ some '\n' := by
      intro hc h
      rw [List.head?_append, Option.or_of_isSome (List.isSome_head?.mpr hne)] at h
      obtain ⟨more, hmore⟩ := List.head?_eq_some_iff.mp h
      exact hr more hc hmore
    rw [List.cons_append, lines_cons hn hhead, ih hrest, attach_append c (lines_ne_nil hne)]

/-- There are as many lines as newlines, and one more if the last line has none. -/
theorem length_lines (t : Text) : (lines t).length = t.count '\n' + if Terminated t then 0 else 1 := by
  fun_induction lines t with
  | case1 => rfl
  | case2 rest ih =>
    have hiff : Terminated ('\n' :: rest) ↔ Terminated rest := by simp [terminated_cons]
    simp only [List.length_cons, List.count_cons_self, ih, hiff]
    omega
  | case3 rest ih =>
    have hiff : Terminated ('\r' :: '\n' :: rest) ↔ Terminated rest := by simp [terminated_cons]
    have hcount : List.count '\n' ('\r' :: '\n' :: rest) = List.count '\n' rest + 1 := by simp
    simp only [List.length_cons, hcount, ih, hiff]
    omega
  | case4 c rest hn hr ih =>
    rw [List.count_cons_of_ne hn]
    by_cases hne : rest = []
    · subst hne
      have hlast : ¬ Terminated [c] := fun h => hn ((terminated_cons.mp h).2 rfl)
      simp [hlast, attach]
    · have hiff : Terminated (c :: rest) ↔ Terminated rest := by simp [terminated_cons, hne]
      rw [length_attach c (lines_ne_nil hne), ih]
      simp only [hiff]

/-! ## Lines that are put together -/

/-- A text that is one line as it stands: it has no newline, and with a newline behind it there is no carriage
return that would go with the newline. -/
def IsLine (l : Text) : Prop := '\n' ∉ l ∧ l.getLast? ≠ some '\r'

instance (l : Text) : Decidable (IsLine l) := inferInstanceAs (Decidable (_ ∧ _))

/-- Whether a text is one line is settled by its newlines and by its end. -/
theorem IsLine.append {s t : Text} (hs : '\n' ∉ s) (ht : IsLine t) (hne : t ≠ []) : IsLine (s ++ t) := by
  refine ⟨?_, ?_⟩
  · rw [List.mem_append, not_or]
    exact ⟨hs, ht.1⟩
  · rw [List.getLast?_append, Option.or_of_isSome (List.getLast?_isSome.mpr hne)]
    exact ht.2

/-- A line with its newline in front of a text is the first line. -/
theorem lines_append_newline {l : Text} (h : IsLine l) (rest : Text) :
    lines (l ++ '\n' :: rest) = l :: lines rest := by
  induction l with
  | nil => exact lines_newline rest
  | cons c l ih =>
    obtain ⟨hn, hr⟩ := h
    obtain ⟨hc, hl⟩ := not_or.mp fun hm => hn (List.mem_cons.mpr hm)
    have hline : IsLine l := by
      refine ⟨hl, fun hlast => hr ?_⟩
      rw [List.getLast?_cons, hlast]
      rfl
    have hhead : c = '\r' → (l ++ '\n' :: rest).head? ≠ some '\n' := by
      rintro rfl hhead
      cases l with
      | nil => exact hr rfl
      | cons d l => exact hl (Option.some.inj hhead ▸ List.mem_cons_self ..)
    rw [List.cons_append, lines_cons (Ne.symm hc) hhead, ih hline]
    rfl

/-- Where every line has its newline, so has the last one. -/
theorem terminated_unlines (ls : List Text) : Terminated (unlines ls) := by
  induction ls with
  | nil => exact terminated_nil
  | cons l ls ih =>
    have hend : Terminated ('\n' :: unlines ls) := terminated_cons.mpr ⟨ih, fun _ => rfl⟩
    refine Or.inr ?_
    rw [unlines_cons, List.getLast?_append, Option.or_of_isSome (List.getLast?_isSome.mpr (List.cons_ne_nil _ _))]
    exact hend.resolve_left (List.cons_ne_nil _ _)

/-- Lines that are put together are taken apart again. -/
theorem lines_unlines {ls : List Text} (h : ∀ l ∈ ls, IsLine l) : lines (unlines ls) = ls := by
  induction ls with
  | nil => exact lines_nil
  | cons l ls ih =>
    rw [unlines_cons, lines_append_newline (h l (List.mem_cons_self ..))]
    rw [ih fun m hm => h m (List.mem_cons_of_mem _ hm)]

end ErrnoBindings
