import ErrnoBindings.Text.Basic

/-!
# Entries in order

A *location* is the list of names that lead from the top directory to a file or a directory. Entries are kept
under their locations in ascending order: lexicographic, name by name, each name by its octets. In that order a
directory stands directly before what it holds, and what it holds is sorted by name, which is the order in which a
tree is listed.

Since the order leaves no freedom, entries that answer every question alike are equal (`Entries.ext`).
-/

namespace ErrnoBindings

/-- Where something stands: the names on the way down from the top directory. -/
abbrev Location := List Bytes

namespace Entries

variable {α : Type}

/-- Entries stand in ascending order of their locations. -/
def Ordered (es : List (Location × α)) : Prop := es.Pairwise fun a b => a.1 < b.1

/-- What is kept under a location. -/
def find? (l : Location) : List (Location × α) → Option α
  | [] => none
  | (k, a) :: rest => if k = l then some a else find? l rest

/-- Keeps something under a location, in place of what was there. -/
def insert (l : Location) (a : α) : List (Location × α) → List (Location × α)
  | [] => [(l, a)]
  | (k, b) :: rest =>
    if l < k then (l, a) :: (k, b) :: rest
    else if k = l then (l, a) :: rest
    else (k, b) :: insert l a rest

/-- Keeps only the entries whose location passes a test. -/
def keep (p : Location → Bool) (es : List (Location × α)) : List (Location × α) := es.filter fun e => p e.1

/-! ## What is found -/

theorem find?_eq_none {l : Location} {es : List (Location × α)} (h : ∀ e ∈ es, e.1 ≠ l) :
    find? l es = none := by
  induction es with
  | nil => rfl
  | cons e rest ih =>
    obtain ⟨k, a⟩ := e
    rw [find?, if_neg (h _ (List.mem_cons_self ..))]
    exact ih fun e he => h e (List.mem_cons_of_mem _ he)

theorem find?_insert (l k : Location) (a : α) (es : List (Location × α)) :
    find? k (insert l a es) = if k = l then some a else find? k es := by
  induction es with
  | nil =>
    by_cases h : k = l
    · simp [insert, find?, h]
    · simp [insert, find?, h, Ne.symm h]
  | cons e rest ih =>
    obtain ⟨q, b⟩ := e
    rw [insert]
    split
    · by_cases h : k = l
      · simp [find?, h]
      · simp [find?, h, Ne.symm h]
    · split
      · next hq =>
        by_cases h : k = l
        · simp [find?, h]
        · have hqk : ¬ q = k := fun e => h (e.symm.trans hq)
          simp [find?, h, Ne.symm h, hqk]
      · next hq =>
        by_cases h : k = l
        · have hqk : ¬ q = k := fun e => hq (e.trans h)
          rw [find?, if_neg hqk, ih, if_pos h, if_pos h]
        · rw [find?, find?, ih, if_neg h, if_neg h]

theorem find?_keep (p : Location → Bool) (k : Location) (es : List (Location × α)) :
    find? k (keep p es) = if p k = true then find? k es else none := by
  induction es with
  | nil => simp [keep, find?]
  | cons e rest ih =>
    obtain ⟨q, b⟩ := e
    have ih' : find? k (List.filter (fun e => p e.1) rest) = if p k = true then find? k rest else none := ih
    by_cases hq : p q = true
    · by_cases hqk : q = k
      · subst hqk
        simp [keep, find?, hq]
      · simp [keep, find?, hq, hqk, ih']
    · by_cases hqk : q = k
      · subst hqk
        simp [keep, hq, ih']
      · simp [keep, find?, hq, hqk, ih']

/-! ## Order -/

theorem lt_of_not_lt_of_ne {l k : Location} (h : ¬ l < k) (hne : ¬ k = l) : k < l := by
  apply Decidable.byContradiction
  intro hkl
  exact hne (List.le_antisymm (List.not_lt.1 h) (List.not_lt.1 hkl))

theorem mem_insert {l : Location} {a : α} {es : List (Location × α)} {e : Location × α}
    (h : e ∈ insert l a es) : e = (l, a) ∨ e ∈ es := by
  induction es with
  | nil => exact Or.inl (List.mem_singleton.1 h)
  | cons d rest ih =>
    obtain ⟨k, b⟩ := d
    rw [insert] at h
    split at h
    · exact List.mem_cons.1 h
    · split at h
      · exact (List.mem_cons.1 h).imp id (List.mem_cons_of_mem _)
      · rcases List.mem_cons.1 h with rfl | h
        · exact Or.inr (List.mem_cons_self ..)
        · exact (ih h).imp id (List.mem_cons_of_mem _)

theorem ordered_insert {es : List (Location × α)} (h : Ordered es) (l : Location) (a : α) :
    Ordered (insert l a es) := by
  induction es with
  | nil => exact List.pairwise_singleton _ _
  | cons e rest ih =>
    obtain ⟨k, b⟩ := e
    obtain ⟨hk, hrest⟩ := List.pairwise_cons.1 h
    rw [insert]
    split
    · next hlt =>
      refine List.pairwise_cons.2 ⟨?_, h⟩
      intro d hd
      rcases List.mem_cons.1 hd with rfl | hd
      · exact hlt
      · exact List.lt_trans hlt (hk d hd)
    · next hlt =>
      split
      · next heq =>
        subst heq
        exact List.pairwise_cons.2 ⟨hk, hrest⟩
      · next hne =>
        refine List.pairwise_cons.2 ⟨?_, ih hrest⟩
        intro d hd
        rcases mem_insert hd with rfl | hd
        · exact lt_of_not_lt_of_ne hlt hne
        · exact hk d hd

theorem ordered_keep {es : List (Location × α)} (h : Ordered es) (p : Location → Bool) :
    Ordered (keep p es) := List.Pairwise.filter _ h

/-- The first of some ordered entries is found, and nothing in front of it. -/
theorem find?_eq_none_of_lt {l : Location} {es : List (Location × α)} (h : ∀ e ∈ es, l < e.1) :
    find? l es = none :=
  find?_eq_none fun e he heq => List.lt_irrefl l (by
    have := h e he
    rwa [heq] at this)

/-- Ordered entries under which the same is found everywhere are the same entries. -/
theorem ext {es fs : List (Location × α)} (he : Ordered es) (hf : Ordered fs)
    (h : ∀ l, find? l es = find? l fs) : es = fs := by
  induction es generalizing fs with
  | nil =>
    cases fs with
    | nil => rfl
    | cons f fs =>
      have := h f.1
      simp [find?] at this
  | cons e es ih =>
    cases fs with
    | nil =>
      have := h e.1
      simp [find?] at this
    | cons f fs =>
      obtain ⟨k, a⟩ := e
      obtain ⟨q, b⟩ := f
      obtain ⟨hk, hes⟩ := List.pairwise_cons.1 he
      obtain ⟨hq, hfs⟩ := List.pairwise_cons.1 hf
      have hkq : k = q := by
        apply Decidable.byContradiction
        intro hne
        -- the lesser of the two first locations is found on its own side only
        rcases Decidable.em (k < q) with hlt | hlt
        · have hnone : find? k ((q, b) :: fs) = none := find?_eq_none_of_lt fun d hd => by
            rcases List.mem_cons.1 hd with rfl | hd
            · exact hlt
            · exact List.lt_trans hlt (hq d hd)
          have := (h k).trans hnone
          simp [find?] at this
        · have hgt : q < k := lt_of_not_lt_of_ne hlt (Ne.symm hne)
          have hnone : find? q ((k, a) :: es) = none := find?_eq_none_of_lt fun d hd => by
            rcases List.mem_cons.1 hd with rfl | hd
            · exact hgt
            · exact List.lt_trans hgt (hk d hd)
          have := hnone.symm.trans (h q)
          simp [find?] at this
      subst hkq
      have hab := h k
      simp only [find?, if_true, Option.some.injEq] at hab
      subst hab
      refine congrArg _ (ih hes hfs fun l => ?_)
      -- behind the first entry its location is not found again, and no other question is touched by it
      by_cases hl : k = l
      · subst hl
        rw [find?_eq_none_of_lt hk, find?_eq_none_of_lt hq]
      · have := h l
        rwa [find?, if_neg hl, find?, if_neg hl] at this

end Entries

end ErrnoBindings
