import ErrnoBindings.Proofs.Listing.Composition
import ErrnoBindings.Proofs.Listing.Grammar
import Mathlib.Data.List.Forall2

/-!
# Newlines with and without carriage returns

Some hosts end a line of a listing with a newline alone, others put a carriage return in front of it. A listing says the
same in both forms. There are two reasons for it, and they meet at every newline: cutting a text into lines takes one
carriage return away with the newline behind it, and any other is a blank that belongs to no word.

* Where a text has no carriage returns of its own, those that are put in are exactly those that cutting takes away. The
  lines are the same (`lines_withReturns`), and so is everything that is read from them, down to the octets that a fault
  counts.
* Where it has some, a line may keep one more at its end than before (`Returned`). Its words do not change
  (`Returned.words_eq`), so the same rows are read, and the first line that is no row is the same one with the same
  defect (`mapError_readRows_congr`). Only what a fault shows of that line can be longer.
* An end of line behind a last line that has none makes no further line (`lines_append_end`).
-/

namespace ErrnoBindings

/-- The text with a carriage return put in front of every newline. -/
def withReturns (t : Text) : Text := t.flatMap fun c => if c = '\n' then ['\r', '\n'] else [c]

@[simp] theorem withReturns_nil : withReturns [] = [] := rfl

@[simp] theorem withReturns_newline (t : Text) : withReturns ('\n' :: t) = '\r' :: '\n' :: withReturns t := rfl

theorem withReturns_cons {c : Char} (h : c ≠ '\n') (t : Text) : withReturns (c :: t) = c :: withReturns t := by
  simp [withReturns, h]

/-- No newline is left without its carriage return, so none stands at the beginning. -/
theorem head?_withReturns_ne (t : Text) : (withReturns t).head? ≠ some '\n' := by
  cases t with
  | nil => simp
  | cons c t =>
    by_cases hc : c = '\n'
    · simp [hc]
    · simp [withReturns_cons hc, hc]

/-! ## Lines -/

/-- Where a text has no carriage returns, those that are put in go with the newlines again. -/
theorem lines_withReturns {t : Text} (h : '\r' ∉ t) : lines (withReturns t) = lines t := by
  induction t with
  | nil => rfl
  | cons c t ih =>
    obtain ⟨hc, ht⟩ := not_or.mp fun hmem => h (List.mem_cons.mpr hmem)
    by_cases hn : c = '\n'
    · rw [hn, withReturns_newline, lines_return_newline, lines_newline, ih ht]
    · have hreturn : c ≠ '\r' := Ne.symm hc
      rw [withReturns_cons hn, lines_cons hn (fun hr => absurd hr hreturn), ih ht,
        lines_cons hn (fun hr => absurd hr hreturn)]

/-- An end of line behind a last line that has none makes no further line. A carriage return at the end of that line
would go with a newline that follows directly. -/
theorem lines_append_end {t e : Text} (ht : ¬ Terminated t) (he : lines e = [[]])
    (hr : t.getLast? = some '\r' → e.head? ≠ some '\n') : lines (t ++ e) = lines t := by
  fun_induction lines t with
  | case1 => exact absurd terminated_nil ht
  | case2 rest ih =>
    have hrest : ¬ Terminated rest := fun h => ht (terminated_cons.mpr ⟨h, fun _ => rfl⟩)
    rw [List.cons_append, lines_newline, ih hrest]
    intro hlast
    exact hr (by rw [List.getLast?_cons, hlast]; rfl)
  | case3 rest ih =>
    have hrest : ¬ Terminated rest :=
      fun h => ht (terminated_cons.mpr ⟨terminated_cons.mpr ⟨h, fun _ => rfl⟩, fun h => by cases h⟩)
    rw [List.cons_append, List.cons_append, lines_return_newline, ih hrest]
    intro hlast
    exact hr (by rw [List.getLast?_cons, List.getLast?_cons, hlast]; rfl)
  | case4 c rest hn hnr ih =>
    by_cases hne : rest = []
    · subst hne
      have hhead : c = '\r' → e.head? ≠ some '\n' := fun hc => hr (by rw [hc]; rfl)
      rw [List.singleton_append, lines_cons hn hhead, he, lines_nil]
      rfl
    · have hrest : ¬ Terminated rest := fun h => ht (terminated_cons.mpr ⟨h, fun h => absurd h hne⟩)
      have hhead : c = '\r' → (rest ++ e).head? ≠ some '\n' := by
        intro hc h
        rw [List.head?_append, Option.or_of_isSome (List.isSome_head?.mpr hne)] at h
        obtain ⟨more, hmore⟩ := List.head?_eq_some_iff.mp h
        exact hnr more hc hmore
      rw [List.cons_append, lines_cons hn hhead, ih hrest]
      intro hlast
      exact hr (by rw [List.getLast?_cons, hlast]; rfl)

/-- A line, and what it may be where carriage returns were put in. -/
def Returned (l l' : Text) : Prop := l' = l ∨ l' = l ++ ['\r']

theorem forall₂_attach {ls ls' : List Text} (c : Char) (h : List.Forall₂ Returned ls ls') :
    List.Forall₂ Returned (attach c ls) (attach c ls') := by
  cases h with
  | nil => exact List.Forall₂.cons (Or.inl rfl) List.Forall₂.nil
  | cons hl hls =>
    refine List.Forall₂.cons ?_ hls
    rcases hl with rfl | rfl
    · exact Or.inl rfl
    · exact Or.inr rfl

/-- The lines stay where they are, and each has at most one carriage return more at its end: the one that went with the
newline before, in the place of which another one goes now. -/
theorem forall₂_lines_withReturns (t : Text) : List.Forall₂ Returned (lines t) (lines (withReturns t)) := by
  fun_induction lines t with
  | case1 => exact List.Forall₂.nil
  | case2 rest ih =>
    rw [withReturns_newline, lines_return_newline]
    exact List.Forall₂.cons (Or.inl rfl) ih
  | case3 rest ih =>
    rw [withReturns_cons (by decide), withReturns_newline, lines_cons (by decide) (fun _ => by simp),
      lines_return_newline]
    exact List.Forall₂.cons (Or.inr rfl) ih
  | case4 c rest hn hnr ih =>
    rw [withReturns_cons hn, lines_cons hn fun _ => head?_withReturns_ne rest]
    exact forall₂_attach c ih

theorem Returned.words_eq {l l' : Text} (h : Returned l l') : words l' = words l := by
  rcases h with rfl | rfl
  · rfl
  · have hgap : IsGap ['\r'] := List.forall_mem_singleton.mpr isBlank_return
    exact words_append_gap hgap l

/-! ## Rows -/

/-- The line that a malformed row stands on, and its defect, with the look of the line left aside. -/
def Fault.place? : Fault → Option (Nat × RowDefect)
  | .malformedRow lineNo defect _ _ => some (lineNo, defect)
  | _ => none

/-- A table that was read is not touched by what is left aside of faults. -/
theorem mapError_eq_ok_iff {ε ε' α : Type} {f : ε → ε'} {x : Except ε α} {a : α} :
    x.mapError f = .ok a ↔ x = .ok a := by
  cases x <;> simp [Except.mapError]

/-- Lines with the same words and the same number are read as the same row, or refused in the same place. -/
theorem Row.mapError_ofLine_place {l l' : Text} (h : words l' = words l) (lineNo : Nat) :
    (ofLine lineNo l').mapError Fault.place? = (ofLine lineNo l).mapError Fault.place? := by
  obtain ⟨r, hr, hjudged⟩ | ⟨defect, span, herror, hjudged⟩ := exists_judged_ofLine lineNo l
  · rw [← h] at hjudged
    rw [hr, ofLine_eq_ok_iff.mpr hjudged]
  · rw [← h] at hjudged
    obtain ⟨span', herror'⟩ : ∃ s, ofLine lineNo l' = .error (.malformedRow lineNo defect l' s) :=
      ofLine_eq_error_iff.mpr hjudged
    rw [herror, herror']
    rfl

/-- Rows are read one after the other, and so is the place where they stop. -/
theorem mapError_readRows_cons (lineNo : Nat) (l : Text) (ls : List Text) :
    (readRows lineNo (l :: ls)).mapError Fault.place? =
      ((Row.ofLine lineNo l).mapError Fault.place?).bind fun r =>
        ((readRows (lineNo + 1) ls).mapError Fault.place?).map (r :: ·) := by
  cases hrow : Row.ofLine lineNo l with
  | error f =>
    rw [readRows_cons_error hrow]
    rfl
  | ok r =>
    rw [readRows_cons_ok hrow]
    cases readRows (lineNo + 1) ls <;> rfl

/-- Where the lines have the same words one by one, the same rows are read, or the reading stops in the same place. -/
theorem mapError_readRows_congr {ls ls' : List Text} (h : List.Forall₂ Returned ls ls') (lineNo : Nat) :
    (readRows lineNo ls').mapError Fault.place? = (readRows lineNo ls).mapError Fault.place? := by
  induction h generalizing lineNo with
  | nil => rfl
  | cons hl _ ih =>
    rw [mapError_readRows_cons, mapError_readRows_cons, Row.mapError_ofLine_place hl.words_eq, ih]

namespace Table

/-- With carriage returns or without, a listing gives the same table or stops in the same place. -/
theorem mapError_ofListing_withReturns (t : Text) :
    (ofListing (withReturns t)).mapError Fault.place? = (ofListing t).mapError Fault.place? := by
  have hrows := mapError_readRows_congr (forall₂_lines_withReturns t) 1
  have hmap : ∀ x : Except Fault (List Row),
      (x.map Table.mk).mapError Fault.place? = (x.mapError Fault.place?).map Table.mk := by
    intro x
    cases x <;> rfl
  rw [ofListing_eq, ofListing_eq, hmap, hmap, hrows]

/-- **A listing says the same with either kind of line end.** A text without carriage returns is read alike, table or
fault, when one is put in front of every newline, and when its last line is given an end that it did not have. A text
that has carriage returns anywhere gives the same table when one more is put in front of every newline, and none if it
gave none; then it stops at the same line, which has the same defect. -/
theorem ofListing_withReturns :
    (∀ t, '\r' ∉ t → ofListing (withReturns t) = ofListing t) ∧
    (∀ t, '\r' ∉ t → t ≠ [] → t.getLast? ≠ some '\n' →
      ofListing (t ++ ['\n']) = ofListing t ∧ ofListing (t ++ ['\r', '\n']) = ofListing t) ∧
    (∀ t T, ofListing (withReturns t) = .ok T ↔ ofListing t = .ok T) ∧
    (∀ t, (ofListing (withReturns t)).mapError Fault.place? = (ofListing t).mapError Fault.place?) := by
  refine ⟨?_, ?_, ?_, mapError_ofListing_withReturns⟩
  · intro t ht
    rw [ofListing_eq, ofListing_eq, lines_withReturns ht]
  · intro t ht hne hlast
    have hopen : ¬ Terminated t := not_or.mpr ⟨hne, hlast⟩
    have hend : t.getLast? ≠ some '\r' := fun h => ht (List.mem_of_getLast? h)
    refine ⟨?_, ?_⟩
    · rw [ofListing_eq, ofListing_eq, lines_append_end hopen (by simp) fun h => absurd h hend]
    · rw [ofListing_eq, ofListing_eq, lines_append_end hopen (by simp) fun h => absurd h hend]
  · intro t T
    rw [← mapError_eq_ok_iff, mapError_ofListing_withReturns, mapError_eq_ok_iff]

/-- A listing without carriage returns that stops at its last line, which has no end. -/
def openListing : Text := "EPERM 1 Not permitted\n\u3000EIO".toList

/-- A listing with carriage returns in front of a newline, within a line, and at its end. -/
def strayListing : Text := "EPERM 1 Not\rpermitted\r\r\nEIO 5\r".toList

theorem ofListing_withReturns_stray :
    let fault : Fault := .malformedRow 2 .missingValue "\u3000EIO".toList ⟨0, 6⟩
    let table : Table := ⟨[⟨"EPERM".toList, 1, "Not permitted".toList⟩, ⟨"EIO".toList, 5, []⟩]⟩
    ('\r' ∉ openListing ∧ openListing ≠ [] ∧ openListing.getLast? ≠ some '\n') ∧
      ofListing (withReturns openListing) = .error fault ∧
      ofListing (openListing ++ ['\n']) = .error fault ∧ ofListing (openListing ++ ['\r', '\n']) = .error fault ∧
      ofListing (withReturns strayListing) = .ok table := by
  intro fault table
  have hopen : '\r' ∉ openListing ∧ openListing ≠ [] ∧ openListing.getLast? ≠ some '\n' := by decide
  have hfault : ofListing openListing = .error fault := rfl
  obtain ⟨hput, hend, hread, -⟩ := ofListing_withReturns
  obtain ⟨hnewline, hreturn⟩ := hend openListing hopen.1 hopen.2.1 hopen.2.2
  exact ⟨hopen, (hput openListing hopen.1).trans hfault, hnewline.trans hfault, hreturn.trans hfault,
    (hread strayListing table).mpr rfl⟩

end Table

end ErrnoBindings
