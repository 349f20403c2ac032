import ErrnoBindings.Tree.Entries

/-!
# Trees of files

The tool reads and writes a tree of directories and regular files. A tree is its entries, and two invariants make
it one: entries stand in order, and whatever stands in the tree stands in a directory of it. The top directory is
always there and is not an entry.

`Tree.get?` is the view: what stands at a location. Trees with the same view are equal (`Tree.ext_get?`). There
are three ways to change a tree, each given by its effect on the view: `put` sets an entry of a directory and
never turns a directory into a file (`get?_put`), `removeFile` takes a regular file away (`get?_removeFile`), and
`removeAll` takes away an entry with all that it holds (`get?_removeAll`).
-/

namespace ErrnoBindings

/-- What can stand at a location. -/
inductive Node where
  /-- a directory -/
  | directory
  /-- a regular file and what it holds -/
  | file (contents : Bytes)
  deriving DecidableEq, Repr

/-- A tree of directories and regular files. -/
structure Tree where
  /-- the entries, the top directory left out -/
  entries : List (Location × Node)
  /-- entries stand in order of location -/
  ordered : Entries.Ordered entries
  /-- every entry stands in a directory -/
  grounded : ∀ l n, Entries.find? l entries = some n →
    l ≠ [] ∧ (l.dropLast = [] ∨ Entries.find? l.dropLast entries = some .directory)

namespace Tree

/-- The tree with nothing in it but its top directory. -/
def empty : Tree := ⟨[], List.Pairwise.nil, fun _ _ h => by cases h⟩

/-- What stands at a location. -/
def get? (t : Tree) (l : Location) : Option Node :=
  if l = [] then some .directory else Entries.find? l t.entries

/-- The top is a directory. -/
@[simp] theorem get?_nil (t : Tree) : t.get? [] = some .directory := if_pos rfl

theorem get?_of_ne_nil (t : Tree) {l : Location} (h : l ≠ []) : t.get? l = Entries.find? l t.entries := if_neg h

/-- Trees with the same view are equal. -/
theorem ext_get? {t u : Tree} (h : ∀ l, t.get? l = u.get? l) : t = u := by
  obtain ⟨es, hes, hges⟩ := t
  obtain ⟨fs, hfs, hgfs⟩ := u
  have hef : es = fs := Entries.ext hes hfs fun l => by
    by_cases hl : l = []
    · subst hl
      cases he : Entries.find? [] es with
      | some n => exact absurd rfl (hges _ _ he).1
      | none =>
        cases hf : Entries.find? [] fs with
        | some n => exact absurd rfl (hgfs _ _ hf).1
        | none => rfl
    · have := h l
      rwa [get?_of_ne_nil _ hl, get?_of_ne_nil _ hl] at this
  subst hef
  rfl

/-- Whatever stands in a tree stands in a directory. -/
theorem get?_dropLast {t : Tree} {l : Location} {n : Node} (h : t.get? l = some n) :
    t.get? l.dropLast = some .directory := by
  by_cases hl : l = []
  · subst hl
    rfl
  · rw [get?_of_ne_nil _ hl] at h
    by_cases hd : l.dropLast = []
    · rw [hd, get?_nil]
    · rw [get?_of_ne_nil _ hd]
      exact ((t.grounded _ _ h).2).resolve_left hd

/-! ## Setting an entry -/

/-- When an entry can be set: its parent is a directory, and if it is a directory itself it stays one. -/
def Settable (t : Tree) (parent : Location) (name : Bytes) (n : Node) : Prop :=
  t.get? parent = some .directory ∧ (t.get? (parent ++ [name]) = some .directory → n = .directory)

instance (t : Tree) (parent : Location) (name : Bytes) (n : Node) : Decidable (t.Settable parent name n) :=
  inferInstanceAs (Decidable (_ ∧ _))

/-- Sets an entry of a directory, where that is possible, and changes nothing otherwise. -/
def put (t : Tree) (parent : Location) (name : Bytes) (n : Node) : Tree :=
  if h : t.Settable parent name n then
    { entries := Entries.insert (parent ++ [name]) n t.entries
      ordered := Entries.ordered_insert t.ordered _ _
      grounded := by
        intro l m hl
        rw [Entries.find?_insert] at hl
        have hne : parent ≠ parent ++ [name] := fun he => by
          have := congrArg List.length he
          simp at this
        split at hl
        · next hlp =>
          -- the entry that is set: its parent is a directory
          subst hlp
          refine ⟨by simp, ?_⟩
          rw [List.dropLast_concat, Entries.find?_insert, if_neg hne]
          by_cases hp : parent = []
          · exact Or.inl hp
          · rw [← get?_of_ne_nil _ hp]
            exact Or.inr h.1
        · -- any other entry: should its parent be the entry that is set, it was a directory and stays one
          obtain ⟨hl0, hld⟩ := t.grounded _ _ hl
          refine ⟨hl0, hld.imp id fun hdir => ?_⟩
          rw [Entries.find?_insert]
          split
          · next hlp =>
            rw [hlp] at hdir
            rw [h.2 (by rw [get?_of_ne_nil _ (by simp), hdir])]
          · exact hdir }
  else t

theorem get?_put {t : Tree} {parent : Location} {name : Bytes} {n : Node} (h : t.Settable parent name n)
    (l : Location) :
    (t.put parent name n).get? l = if l = parent ++ [name] then some n else t.get? l := by
  rw [put, dif_pos h]
  by_cases hl : l = []
  · subst hl
    simp
  · rw [get?_of_ne_nil _ hl, get?_of_ne_nil _ hl, Entries.find?_insert]

/-! ## Taking entries away -/

/-- Takes a regular file away; a directory, and a location where nothing stands, are left as they are. -/
def removeFile (t : Tree) (l : Location) : Tree :=
  if h : t.get? l = some .directory then t
  else
    { entries := Entries.keep (fun k => decide (k ≠ l)) t.entries
      ordered := Entries.ordered_keep t.ordered _
      grounded := by
        intro k m hk
        rw [Entries.find?_keep] at hk
        split at hk
        · obtain ⟨hk0, hkd⟩ := t.grounded _ _ hk
          refine ⟨hk0, ?_⟩
          by_cases hd : k.dropLast = []
          · exact Or.inl hd
          · -- the parent is a directory, and no directory is taken away
            have hdir := hkd.resolve_left hd
            refine Or.inr ?_
            rw [Entries.find?_keep, if_pos, hdir]
            refine decide_eq_true fun hkl => h ?_
            rw [← hkl, get?_of_ne_nil _ hd, hdir]
        · cases hk }

theorem get?_removeFile {t : Tree} {l : Location} (h : t.get? l ≠ some .directory) (k : Location) :
    (t.removeFile l).get? k = if k = l then none else t.get? k := by
  rw [removeFile, dif_neg h]
  by_cases hk : k = []
  · subst hk
    have hl : ¬ ([] : Location) = l := fun he => h (by rw [← he, get?_nil])
    rw [get?_nil, get?_nil, if_neg hl]
  · rw [get?_of_ne_nil _ hk, get?_of_ne_nil _ hk, Entries.find?_keep]
    by_cases hkl : k = l <;> simp [hkl]

/-- Takes away what stands at a location together with all that stands below it. The top directory itself cannot
be taken away. -/
def removeAll (t : Tree) (l : Location) : Tree :=
  { entries := Entries.keep (fun k => !l.isPrefixOf k) t.entries
    ordered := Entries.ordered_keep t.ordered _
    grounded := by
      intro k m hk
      rw [Entries.find?_keep] at hk
      split at hk
      · next hkeep =>
        obtain ⟨hk0, hkd⟩ := t.grounded _ _ hk
        refine ⟨hk0, hkd.imp id fun hdir => ?_⟩
        rw [Entries.find?_keep, if_pos, hdir]
        -- what lies below the parent lies below the entry
        simp only [Bool.not_eq_true', Bool.eq_false_iff, ne_eq, List.isPrefixOf_iff_prefix] at hkeep ⊢
        exact fun hp => hkeep (hp.trans (List.dropLast_prefix k))
      · cases hk }

theorem get?_removeAll (t : Tree) (l k : Location) (h : k ≠ []) :
    (t.removeAll l).get? k = if l <+: k then none else t.get? k := by
  rw [get?_of_ne_nil _ h, get?_of_ne_nil _ h, removeAll, Entries.find?_keep]
  by_cases hp : l <+: k
  · simp [List.isPrefixOf_iff_prefix.2 hp, hp]
  · have hfalse : l.isPrefixOf k = false := by
      rw [Bool.eq_false_iff, ne_eq, List.isPrefixOf_iff_prefix]
      exact hp
    simp [hfalse, hp]

end Tree

end ErrnoBindings
