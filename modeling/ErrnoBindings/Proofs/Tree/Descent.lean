import ErrnoBindings.Tree.Directories
import ErrnoBindings.Tree.Walk

/-!
# Where a path leads

Without links, where a path leads can be read off its steps (`Path.location`). Whether the way can be gone is
another matter, and depends on what stands in the tree: a walk that succeeds ends where the steps lead
(`Tree.eq_follow_of_walk`), and a directory that is made on the way opens it.

* A descent only ever adds directories, and only at places that its steps lead through (`Tree.grows_descend`).
* When it gets to its end, its steps can be walked in the tree that it leaves (`Tree.walk_descend`).
-/

namespace ErrnoBindings

namespace Path

/-- Where steps lead from a location, if each of them can be taken. -/
def follow : Location → List Step → Location
  | l, [] => l
  | l, .here :: rest => follow l rest
  | l, .up :: rest => follow l.dropLast rest
  | l, .into name :: rest => follow (l ++ [name]) rest

/-- Where a path leads, if all of the way can be gone. -/
def location (path : Bytes) : Location := follow [] (steps path)

/-- A path leads through a location, or to it: the location is where some of its first steps lead. -/
def Through (path : Bytes) (l : Location) : Prop := ∃ p, p <+: steps path ∧ l = follow [] p

theorem follow_append (l : Location) (p q : List Step) : follow l (p ++ q) = follow (follow l p) q := by
  induction p generalizing l with
  | nil => rfl
  | cons s p ih => cases s <;> exact ih _

end Path

namespace Tree

/-! ## Walks -/

/-- A step can be taken from a directory: the name that it goes into, if it goes into one, is not too long. -/
def Fits : Step → Prop
  | .into name => name.length ≤ Path.longestName
  | _ => True

@[simp] theorem fits_here : Fits .here := trivial

@[simp] theorem fits_up : Fits .up := trivial

@[simp] theorem fits_into {name : Bytes} : Fits (.into name) ↔ name.length ≤ Path.longestName := Iff.rfl

/-- A step that fits is taken in a directory, and the rest is walked from where it leads. -/
theorem walk_cons {t : Tree} {l : Location} {s : Step} (hdir : t.get? l = some .directory) (hfits : Fits s)
    (rest : List Step) : t.walk l (s :: rest) = t.walk (Path.follow l [s]) rest := by
  cases s with
  | here => simp [walk, hdir, Path.follow]
  | up => simp [walk, hdir, Path.follow]
  | into name =>
    have hshort : ¬ Path.longestName < name.length := Nat.not_lt.mpr (fits_into.mp hfits)
    simp [walk, hdir, hshort, Path.follow]

/-- A walk whose first step is taken takes it in a directory. -/
theorem walk_cons_eq_ok {t : Tree} {l k : Location} {s : Step} {rest : List Step}
    (h : t.walk l (s :: rest) = .ok k) :
    t.get? l = some .directory ∧ Fits s ∧ t.walk (Path.follow l [s]) rest = .ok k := by
  have hdir : t.get? l = some .directory := by
    cases hl : t.get? l with
    | none => cases s <;> simp [walk, hl] at h
    | some n =>
      cases n with
      | directory => rfl
      | file c => cases s <;> simp [walk, hl] at h
  have hfits : Fits s := by
    cases s with
    | here => exact fits_here
    | up => exact fits_up
    | into name =>
      refine fits_into.mpr (Nat.not_lt.mp fun hlong => ?_)
      simp [walk, hdir, hlong] at h
  rw [walk_cons hdir hfits] at h
  exact ⟨hdir, hfits, h⟩

/-- A walk that succeeds ends where its steps lead. -/
theorem eq_follow_of_walk {t : Tree} {l k : Location} {steps : List Step} (h : t.walk l steps = .ok k) :
    k = Path.follow l steps := by
  induction steps generalizing l with
  | nil =>
    cases h
    rfl
  | cons s rest ih =>
    obtain ⟨-, -, hrest⟩ := walk_cons_eq_ok h
    rw [ih hrest]
    exact (Path.follow_append l [s] rest).symm

/-- A path that leads anywhere leads to its location. -/
theorem eq_location_of_locate {t : Tree} {path : Bytes} {l : Location} (h : t.locate path = .ok l) :
    l = Path.location path := by
  rw [locate] at h
  split at h
  · cases h
  · split at h
    · cases h
    · exact eq_follow_of_walk h

/-- A walk takes its steps in directories, so it goes the same way in every tree that has these directories. -/
theorem walk_of_keeps {t u : Tree} {l k : Location} {steps : List Step}
    (hkeeps : ∀ q, t.get? q = some .directory → u.get? q = some .directory) (h : t.walk l steps = .ok k) :
    u.walk l steps = .ok k := by
  induction steps generalizing l with
  | nil => exact h
  | cons s rest ih =>
    obtain ⟨hdir, hfits, hrest⟩ := walk_cons_eq_ok h
    rw [walk_cons (hkeeps l hdir) hfits]
    exact ih hrest

/-- What a path leads to, it leads to in every tree that has these directories. -/
theorem locate_of_keeps {t u : Tree} {path : Bytes} {l : Location}
    (hkeeps : ∀ q, t.get? q = some .directory → u.get? q = some .directory) (h : t.locate path = .ok l) :
    u.locate path = .ok l := by
  rw [locate] at h ⊢
  split at h
  · cases h
  · split at h
    · cases h
    · next hne =>
      rw [if_neg hne]
      exact walk_of_keeps hkeeps h

/-- Behind a walk that succeeds, the next steps are walked from where it ended. -/
theorem walk_append {t : Tree} {l k : Location} {p : List Step} (h : t.walk l p = .ok k) (q : List Step) :
    t.walk l (p ++ q) = t.walk k q := by
  induction p generalizing l with
  | nil =>
    cases h
    rfl
  | cons s rest ih =>
    obtain ⟨hdir, hfits, hrest⟩ := walk_cons_eq_ok h
    rw [List.cons_append, walk_cons hdir hfits]
    exact ih hrest

/-- A path with one more name leads to the entry of that name, in the directory that the path leads to. -/
theorem locate_entry {t : Tree} {path name : Bytes} {dir : Location}
    (hwalk : t.walk [] (Path.steps path) = .ok dir) (hdir : t.get? dir = some .directory)
    (hname : Path.steps name = [.into name]) (hlength : name.length ≤ Path.longestName)
    (hcheck : Path.check (path ++ Path.separator :: name) = .ok ()) :
    t.locate (path ++ Path.separator :: name) = .ok (dir ++ [name]) := by
  rw [locate, hcheck]
  dsimp only
  rw [if_neg (by simp), Path.steps_append_separator, walk_append hwalk, hname, walk_cons hdir (fits_into.mpr hlength)]
  rfl

/-! ## Trees that only grow -/

/-- `u` is `t` with directories added where there was nothing, at places of a kind, and is `t` everywhere else. -/
def Grows (P : Location → Prop) (t u : Tree) : Prop :=
  ∀ l, u.get? l = t.get? l ∨ t.get? l = none ∧ u.get? l = some .directory ∧ P l

namespace Grows

variable {P Q : Location → Prop} {t u v : Tree}

theorem refl (t : Tree) : Grows P t t := fun _ => Or.inl rfl

theorem imp (h : Grows P t u) (hPQ : ∀ l, P l → Q l) : Grows Q t u := by
  intro l
  rcases h l with heq | ⟨hnone, hdir, hP⟩
  · exact Or.inl heq
  · exact Or.inr ⟨hnone, hdir, hPQ l hP⟩

theorem trans (htu : Grows P t u) (huv : Grows P u v) : Grows P t v := by
  intro l
  rcases huv l with heq | ⟨hnone, hdir, hP⟩
  · rw [heq]
    exact htu l
  · rcases htu l with heq | ⟨-, hsome, -⟩
    · rw [heq] at hnone
      exact Or.inr ⟨hnone, hdir, hP⟩
    · rw [hsome] at hnone
      cases hnone

/-- What stood before stands afterwards. -/
theorem get?_of_some (h : Grows P t u) {l : Location} {n : Node} (hl : t.get? l = some n) : u.get? l = some n := by
  rcases h l with heq | ⟨hnone, -, -⟩
  · rw [heq, hl]
  · rw [hl] at hnone
    cases hnone

/-- The regular files are the same. -/
theorem file_iff (h : Grows P t u) {l : Location} {c : Bytes} :
    u.get? l = some (.file c) ↔ t.get? l = some (.file c) := by
  rcases h l with heq | ⟨hnone, hdir, -⟩
  · rw [heq]
  · rw [hnone, hdir]
    simp

end Grows

/-- A directory is added where there was nothing. -/
theorem grows_put_directory {P : Location → Prop} {t : Tree} {l : Location} {name : Bytes}
    (hl : t.get? l = some .directory) (hnone : t.get? (l ++ [name]) = none) (hP : P (l ++ [name])) :
    Grows P t (t.put l name .directory) := by
  intro k
  rw [get?_put_directory hl]
  split
  · next hk =>
    subst hk
    exact Or.inr ⟨hnone, rfl, hP⟩
  · exact Or.inl rfl

/-- A descent adds directories at places that its steps lead through, and does nothing else, whether or not it
gets to its end. -/
theorem grows_descend {t : Tree} {l : Location} {made : Bool} {steps : List Step}
    (hl : t.get? l = some .directory) :
    Grows (fun k => ∃ p, p <+: steps ∧ k = Path.follow l p) t (t.descend l made steps).1 := by
  induction steps generalizing t l made with
  | nil => exact Grows.refl t
  | cons s rest ih =>
    -- a place that the rest of the steps leads through is one that all of them lead through
    have hcons : ∀ k, (∃ p, p <+: rest ∧ k = Path.follow (Path.follow l [s]) p) →
        ∃ p, p <+: s :: rest ∧ k = Path.follow l p := by
      rintro k ⟨p, hp, rfl⟩
      exact ⟨s :: p, List.cons_prefix_cons.mpr ⟨rfl, hp⟩, (Path.follow_append l [s] p).symm⟩
    cases s with
    | here => exact (ih hl).imp hcons
    | up => exact (ih (get?_dropLast hl)).imp hcons
    | into name =>
      rw [descend]
      split
      · exact Grows.refl t
      · split
        · next hdir => exact (ih hdir).imp hcons
        · exact Grows.refl t
        · next hnone =>
          have hmade : (t.put l name .directory).get? (l ++ [name]) = some .directory := by
            rw [get?_put_directory hl, if_pos rfl]
          have hfirst := grows_put_directory (P := fun k => ∃ p, p <+: .into name :: rest ∧ k = Path.follow l p)
            hl hnone ⟨[.into name], by simp, rfl⟩
          exact hfirst.trans ((ih hmade).imp hcons)

/-- A descent that gets to its end leaves a tree in which its steps can be walked. -/
theorem walk_descend {t : Tree} {l k : Location} {made : Bool} {steps : List Step}
    (hl : t.get? l = some .directory) (h : (t.descend l made steps).2 = .ok k) :
    (t.descend l made steps).1.walk l steps = .ok k := by
  induction steps generalizing t l made with
  | nil =>
    cases h
    rfl
  | cons s rest ih =>
    have hstays : (t.descend l made (s :: rest)).1.get? l = some .directory := get?_descend_of_some hl hl
    cases s with
    | here =>
      rw [walk_cons hstays fits_here]
      exact ih hl h
    | up =>
      rw [walk_cons hstays fits_up]
      exact ih (get?_dropLast hl) h
    | into name =>
      by_cases hlong : Path.longestName < name.length
      · rw [descend, if_pos hlong] at h
        cases h
      · rw [walk_cons hstays (fits_into.mpr (Nat.not_lt.mp hlong))]
        rw [descend, if_neg hlong] at h ⊢
        split at h
        · next hdir => exact ih hdir h
        · cases h
        · exact ih (by rw [get?_put_directory hl, if_pos rfl]) h

/-! ## The directories on the way to a file -/

/-- Making directories adds directories along the path, and does nothing else. -/
theorem grows_makeDirectories (t : Tree) (path : Bytes) :
    Grows (Path.Through path) t (t.makeDirectories path).1 := by
  rw [makeDirectories]
  split
  · exact Grows.refl t
  · exact grows_descend (get?_nil t)

/-- Directories that are made end in a directory, at the location of the path, and the path leads there. -/
theorem makeDirectories_eq_ok {t u : Tree} {path : Bytes} {dir : Location}
    (h : t.makeDirectories path = (u, .ok dir)) :
    u.walk [] (Path.steps path) = .ok dir ∧ u.get? dir = some .directory ∧ dir = Path.location path := by
  rw [makeDirectories] at h
  split at h
  · cases h
  · have htree : (t.descend [] false (Path.steps path)).1 = u := congrArg Prod.fst h
    have hdir : (t.descend [] false (Path.steps path)).2 = .ok dir := congrArg Prod.snd h
    have hwalk := walk_descend (get?_nil t) hdir
    rw [htree] at hwalk
    refine ⟨hwalk, ?_, eq_follow_of_walk hwalk⟩
    rw [← htree]
    exact get?_of_descend (get?_nil t) hdir

end Tree

end ErrnoBindings
