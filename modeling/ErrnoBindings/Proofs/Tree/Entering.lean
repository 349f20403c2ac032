import ErrnoBindings.Proofs.Tree.Descent

/-!
# Descents without their refusals

Which refusal a descent ends in depends on what it had to make before, and so on what others have made. The tree that
it leaves, and whether it gets to its end, do not. `Tree.enter` is a descent of which only these two are kept
(`Tree.descend_eq_enter`), and `Tree.enterThen` goes on to do something where it ends.

A descent that has been made once can be made again, to the same end, and has nothing left to do (`Tree.enter_enter`);
if it got to its end, that is so in every tree that kept the directories (`Tree.enter_of_keeps`). So what is true of
something done in a directory is true when the way there is made first:

* it can be done again without effect (`Tree.Repeatable.enterThen`);
* it can change places with something else that is done there (`Tree.Interchangeable.enterThen`).

Things can change places when they do not concern each other. What is done in a tree is *confined* to a place if it
neither touches nor looks at anything but what stands there and below, and what is confined to places apart is
interchangeable (`Tree.Confined.interchangeable`). Behind a descent into names, what is done in the directory at its
end is confined to the first of the names (`Tree.Confined.enterThen`).
-/

namespace ErrnoBindings

/-- Steps into names lead to where the names say. -/
theorem Path.follow_map_into (l : Location) (names : List Bytes) : Path.follow l (names.map .into) = l ++ names := by
  induction names generalizing l with
  | nil => exact (List.append_nil l).symm
  | cons name rest ih =>
    rw [List.map_cons, Path.follow, ih, List.append_assoc]
    rfl

namespace Tree

/-- Goes down some steps from a directory and makes the directories that are missing: the tree afterwards, and the
directory at the end, if it can be reached. -/
def enter (t : Tree) (l : Location) : List Step → Tree × Option Location
  | [] => (t, some l)
  | .here :: rest => enter t l rest
  | .up :: rest => enter t l.dropLast rest
  | .into name :: rest =>
    if Path.longestName < name.length then (t, none)
    else
      match t.get? (l ++ [name]) with
      | some .directory => enter t (l ++ [name]) rest
      | some (.file _) => (t, none)
      | none => enter (t.put l name .directory) (l ++ [name]) rest

/-- The tree and the end of a descent, whatever had been made before it. -/
theorem descend_eq_enter (t : Tree) (l : Location) (made : Bool) (steps : List Step) :
    ((t.descend l made steps).1, (t.descend l made steps).2.toOption) = t.enter l steps := by
  induction steps generalizing t l made with
  | nil => rfl
  | cons s rest ih =>
    cases s with
    | here => exact ih t l made
    | up => exact ih t l.dropLast made
    | into name =>
      by_cases hlong : Path.longestName < name.length
      · simp only [descend, enter, if_pos hlong]
        rfl
      · simp only [descend, enter, if_neg hlong]
        cases t.get? (l ++ [name]) with
        | none => exact ih _ _ true
        | some n =>
          cases n with
          | directory => exact ih t _ made
          | file contents => rfl

section Enter

variable {t u : Tree} {l k : Location} {steps : List Step}

/-- Whatever stood before stands afterwards. -/
theorem get?_enter_of_some {n : Node} (hl : t.get? l = some .directory) (hk : t.get? k = some n)
    (steps : List Step) : (t.enter l steps).1.get? k = some n := by
  rw [← descend_eq_enter t l false]
  exact get?_descend_of_some hl hk

/-- A descent that gets to its end is one that ends there. -/
theorem descend_of_enter (h : t.enter l steps = (u, some k)) : t.descend l false steps = (u, .ok k) := by
  rw [← descend_eq_enter t l false] at h
  obtain ⟨htree, hend⟩ := Prod.mk.inj h
  refine Prod.ext htree ?_
  cases hresult : (t.descend l false steps).2 with
  | error e =>
    rw [hresult] at hend
    cases hend
  | ok k' =>
    rw [hresult] at hend
    cases hend
    rfl

/-- The end of a descent is a directory, and the steps can be walked to it. -/
theorem walk_of_enter (hl : t.get? l = some .directory) (h : t.enter l steps = (u, some k)) :
    u.walk l steps = .ok k ∧ u.get? k = some .directory := by
  have hdescend := descend_of_enter h
  have hend : (t.descend l false steps).2 = .ok k := by rw [hdescend]
  have hwalk := walk_descend hl hend
  have hdir := get?_of_descend hl hend
  rw [hdescend] at hwalk hdir
  exact ⟨hwalk, hdir⟩

/-- A walk that ends in a directory starts in one. -/
theorem get?_of_walk (h : t.walk l steps = .ok k) (hk : t.get? k = some .directory) : t.get? l = some .directory := by
  cases steps with
  | nil =>
    cases h
    exact hk
  | cons s rest => exact (walk_cons_eq_ok h).1

/-- Where there is nothing to make, a descent is a walk. -/
theorem enter_of_walk (h : t.walk l steps = .ok k) (hk : t.get? k = some .directory) :
    t.enter l steps = (t, some k) := by
  induction steps generalizing l with
  | nil =>
    cases h
    rfl
  | cons s rest ih =>
    obtain ⟨-, hfits, hrest⟩ := walk_cons_eq_ok h
    cases s with
    | here => exact ih hrest
    | up => exact ih hrest
    | into name =>
      have hdir : t.get? (l ++ [name]) = some .directory := get?_of_walk hrest hk
      rw [enter, if_neg (Nat.not_lt.mpr (fits_into.mp hfits)), hdir]
      exact ih hrest

/-- A descent that got to its end gets there in every tree that kept the directories, and makes nothing. -/
theorem enter_of_keeps {v : Tree} (hl : t.get? l = some .directory) (h : t.enter l steps = (u, some k))
    (hkeeps : ∀ q, u.get? q = some .directory → v.get? q = some .directory) : v.enter l steps = (v, some k) := by
  obtain ⟨hwalk, hk⟩ := walk_of_enter hl h
  exact enter_of_walk (walk_of_keeps hkeeps hwalk) (hkeeps k hk)

/-- A descent that has been made once makes nothing when it is made again, and comes to the same end. -/
theorem enter_enter {r : Option Location} (hl : t.get? l = some .directory) (h : t.enter l steps = (u, r)) :
    u.enter l steps = (u, r) := by
  induction steps generalizing t l with
  | nil =>
    cases h
    rfl
  | cons s rest ih =>
    cases s with
    | here => exact ih hl h
    | up => exact ih (get?_dropLast hl) h
    | into name =>
      by_cases hlong : Path.longestName < name.length
      · rw [enter, if_pos hlong] at h ⊢
        cases h
        rfl
      · rw [enter, if_neg hlong] at h ⊢
        split at h
        · next hdir =>
          have hkept : u.get? (l ++ [name]) = some .directory := by
            have hkept := get?_enter_of_some hdir hdir rest
            rwa [h] at hkept
          rw [hkept]
          exact ih hdir h
        · next hfile =>
          cases h
          rw [hfile]
        · next hnone =>
          have hmade : (t.put l name .directory).get? (l ++ [name]) = some .directory := by
            rw [get?_put_directory hl, if_pos rfl]
          have hkept : u.get? (l ++ [name]) = some .directory := by
            have hkept := get?_enter_of_some hmade hmade rest
            rwa [h] at hkept
          rw [hkept]
          exact ih hmade h

end Enter

/-! ## What is done at the end of a descent -/

/-- Goes down some steps from a directory and does something where they end, unless something is in the way. -/
def enterThen {α : Type} (t : Tree) (l : Location) (steps : List Step) (f : Location → Tree → Tree × Option α) :
    Tree × Option α :=
  match t.enter l steps with
  | (u, none) => (u, none)
  | (u, some k) => f k u

variable {α β γ : Type}

/-- A descent goes on from where its first part ended. -/
theorem enterThen_append (t : Tree) (l : Location) (p q : List Step) (f : Location → Tree → Tree × Option α) :
    t.enterThen l (p ++ q) f = t.enterThen l p fun k u => u.enterThen k q f := by
  induction p generalizing t l with
  | nil => rfl
  | cons s rest ih =>
    cases s with
    | here => exact ih t l
    | up => exact ih t l.dropLast
    | into name =>
      simp only [enterThen] at ih
      by_cases hlong : Path.longestName < name.length
      · simp only [enterThen, List.cons_append, enter, if_pos hlong]
      · simp only [enterThen, List.cons_append, enter, if_neg hlong]
        cases t.get? (l ++ [name]) with
        | none => exact ih _ _
        | some n =>
          cases n with
          | directory => exact ih t _
          | file contents => rfl

/-- What is done in a directory keeps all directories, and when it is done again, it changes nothing and has the same
answer. -/
structure Repeatable (l : Location) (f : Tree → Tree × β) : Prop where
  keeps : ∀ {t : Tree}, t.get? l = some .directory → ∀ {k : Location}, t.get? k = some .directory →
    (f t).1.get? k = some .directory
  again : ∀ {t : Tree}, t.get? l = some .directory → f (f t).1 = f t

/-- What is done in a directory can be done before or after something else: the tree is the same, and so are the
answers. -/
def Interchangeable (l : Location) (f : Tree → Tree × β) (g : Tree → Tree × γ) : Prop :=
  ∀ t : Tree, t.get? l = some .directory →
    (g (f t).1).1 = (f (g t).1).1 ∧ (f (g t).1).2 = (f t).2 ∧ (g (f t).1).2 = (g t).2

/-- Doing nothing can be repeated. -/
theorem Repeatable.idle (l : Location) (answer : β) : Repeatable l fun t => (t, answer) where
  keeps _ _ hk := hk
  again _ := rfl

/-- What can be repeated can be repeated when something is made of its answer. -/
theorem Repeatable.map {l : Location} {f : Tree → Tree × β} (hf : Repeatable l f) (answer : β → γ) :
    Repeatable l fun t => Prod.map id answer (f t) where
  keeps := hf.keeps
  again hl := congrArg (Prod.map id answer) (hf.again hl)

section EnterThen

variable {f g : Location → Tree → Tree × Option α}

/-- What can be repeated in a directory can be repeated with the way to it. -/
theorem Repeatable.enterThen (hf : ∀ k, Repeatable k (f k)) (l : Location) (steps : List Step) :
    Repeatable l fun t => t.enterThen l steps f where
  keeps {t} hl k hk := by
    have hkept := get?_enter_of_some hl hk steps
    rw [Tree.enterThen]
    rcases henter : t.enter l steps with ⟨u, _ | dir⟩
    · rwa [henter] at hkept
    · rw [henter] at hkept
      exact (hf dir).keeps (walk_of_enter hl henter).2 hkept
  again {t} hl := by
    rw [Tree.enterThen, Tree.enterThen]
    rcases henter : t.enter l steps with ⟨u, _ | dir⟩
    · simp only [enter_enter hl henter]
    · have hdir := (walk_of_enter hl henter).2
      have hagain : (f dir u).1.enter l steps = ((f dir u).1, some dir) :=
        enter_of_keeps hl henter fun k hk => (hf dir).keeps hdir hk
      simp only [hagain, (hf dir).again hdir]

/-- What can change places in a directory can change places when the way to it is made before each. -/
theorem Interchangeable.enterThen (hf : ∀ k, Repeatable k (f k)) (hg : ∀ k, Repeatable k (g k))
    (h : ∀ k, Interchangeable k (f k) (g k)) (l : Location) (steps : List Step) :
    Interchangeable l (fun t => t.enterThen l steps f) (fun t => t.enterThen l steps g) := by
  intro t hl
  simp only [Tree.enterThen]
  rcases henter : t.enter l steps with ⟨u, _ | dir⟩
  · simp only [enter_enter hl henter, and_self]
  · -- whichever comes first, the other one gets to the same directory and makes nothing
    have hdir := (walk_of_enter hl henter).2
    have hafterf : (f dir u).1.enter l steps = ((f dir u).1, some dir) :=
      enter_of_keeps hl henter fun k hk => (hf dir).keeps hdir hk
    have hafterg : (g dir u).1.enter l steps = ((g dir u).1, some dir) :=
      enter_of_keeps hl henter fun k hk => (hg dir).keeps hdir hk
    simp only [hafterf, hafterg]
    exact h dir u hdir

end EnterThen

/-! ## What is confined to a place -/

/-- The same stands in two trees at a place and below it. -/
def AgreeAt (p : Location) (t u : Tree) : Prop := ∀ k, p <+: k → t.get? k = u.get? k

/-- What is done in a directory is confined to a place: nothing else is touched, and nothing else has a say in what
becomes of the place and in the answer. -/
structure Confined (l p : Location) (f : Tree → Tree × β) : Prop where
  frame : ∀ {t : Tree}, t.get? l = some .directory → ∀ {k : Location}, ¬ p <+: k → (f t).1.get? k = t.get? k
  congr : ∀ {t u : Tree}, t.get? l = some .directory → u.get? l = some .directory → AgreeAt p t u →
    AgreeAt p (f t).1 (f u).1 ∧ (f t).2 = (f u).2

/-- Doing nothing is confined to any place. -/
theorem Confined.idle (l p : Location) (answer : β) : Confined l p fun t => (t, answer) where
  frame _ _ _ := rfl
  congr _ _ hagree := ⟨hagree, rfl⟩

/-- What is confined to a place is confined to it when something is made of its answer. -/
theorem Confined.map {l p : Location} {f : Tree → Tree × β} (hf : Confined l p f) (answer : β → γ) :
    Confined l p fun t => Prod.map id answer (f t) where
  frame := hf.frame
  congr ht hu hagree := (hf.congr ht hu hagree).imp id (congrArg answer)

/-- What is confined to places apart, neither of them on the way to the directory, can be done in any order. -/
theorem Confined.interchangeable {l p q : Location} {f : Tree → Tree × β} {g : Tree → Tree × γ}
    (hf : Confined l p f) (hg : Confined l q g) (hapart : ∀ k, p <+: k → ¬ q <+: k) (hp : ¬ p <+: l)
    (hq : ¬ q <+: l) : Interchangeable l f g := by
  intro t hl
  have hdirf : (f t).1.get? l = some .directory := by rw [hf.frame hl hp, hl]
  have hdirg : (g t).1.get? l = some .directory := by rw [hg.frame hl hq, hl]
  -- what the one has done is not seen by the other
  have hagreef : AgreeAt p (g t).1 t := fun k hk => hg.frame hl (hapart k hk)
  have hagreeg : AgreeAt q (f t).1 t := fun k hk => hf.frame hl fun hpk => hapart k hpk hk
  obtain ⟨hplacef, hanswerf⟩ := hf.congr hdirg hl hagreef
  obtain ⟨hplaceg, hanswerg⟩ := hg.congr hdirf hl hagreeg
  refine ⟨ext_get? fun k => ?_, hanswerf, hanswerg⟩
  by_cases hpk : p <+: k
  · calc (g (f t).1).1.get? k = (f t).1.get? k := hg.frame hdirf (hapart k hpk)
      _ = (f (g t).1).1.get? k := (hplacef k hpk).symm
  · by_cases hqk : q <+: k
    · calc (g (f t).1).1.get? k = (g t).1.get? k := hplaceg k hqk
        _ = (f (g t).1).1.get? k := (hf.frame hdirg hpk).symm
    · calc (g (f t).1).1.get? k = t.get? k := (hg.frame hdirf hqk).trans (hf.frame hl hpk)
        _ = (f (g t).1).1.get? k := ((hf.frame hdirg hpk).trans (hg.frame hl hqk)).symm

/-- A descent into names leaves alone what does not stand at its first name or below. -/
theorem get?_enter_into {t : Tree} {l k : Location} {name : Bytes} (hl : t.get? l = some .directory)
    (hk : ¬ l ++ [name] <+: k) (rest : List Bytes) :
    (t.enter l ((name :: rest).map .into)).1.get? k = t.get? k := by
  have hgrows : Grows _ t (t.descend l false ((name :: rest).map .into)).1 := grows_descend hl
  rw [← descend_eq_enter t l false]
  rcases hgrows k with hsame | ⟨hnone, -, p, hp, rfl⟩
  · exact hsame
  · -- the places that it makes are where its steps lead, and the first of these is where it starts
    obtain ⟨names, hnames, rfl⟩ := List.prefix_map_iff.mp hp
    rw [Path.follow_map_into] at hk hnone
    cases names with
    | nil =>
      rw [List.append_nil, hl] at hnone
      cases hnone
    | cons n names =>
      obtain ⟨rfl, -⟩ := List.cons_prefix_cons.mp hnames
      refine absurd ?_ hk
      have hfirst := List.prefix_append (l ++ [n]) names
      rwa [List.append_assoc, List.singleton_append] at hfirst

/-- A descent into names looks at nothing but what stands at its first name or below. -/
theorem enter_into_congr {p l : Location} {t u : Tree} (names : List Bytes)
    (hbelow : ∀ name ∈ names.head?, p <+: l ++ [name]) (ht : t.get? l = some .directory)
    (hu : u.get? l = some .directory) (hagree : AgreeAt p t u) :
    AgreeAt p (t.enter l (names.map .into)).1 (u.enter l (names.map .into)).1 ∧
      (t.enter l (names.map .into)).2 = (u.enter l (names.map .into)).2 := by
  induction names generalizing t u l with
  | nil => exact ⟨hagree, rfl⟩
  | cons name rest ih =>
    have hname : p <+: l ++ [name] := hbelow name rfl
    have hnext : ∀ n ∈ rest.head?, p <+: l ++ [name] ++ [n] := fun n _ => hname.trans (List.prefix_append _ _)
    rw [List.map_cons, enter, enter, ← hagree _ hname]
    split
    · exact ⟨hagree, rfl⟩
    · split
      · next hdir => exact ih hnext hdir (by rw [← hagree _ hname, hdir]) hagree
      · exact ⟨hagree, rfl⟩
      · have hput : AgreeAt p (t.put l name .directory) (u.put l name .directory) := by
          intro k hk
          rw [get?_put_directory ht, get?_put_directory hu, hagree k hk]
        refine ih hnext ?_ ?_ hput
        · rw [get?_put_directory ht, if_pos rfl]
        · rw [get?_put_directory hu, if_pos rfl]

/-- What is confined to a directory is, behind a descent into names, confined to where the first of them leads. -/
theorem Confined.enterThen {f : Location → Tree → Tree × Option α} (hf : ∀ k, Confined k k (f k)) (l : Location)
    (name : Bytes) (rest : List Bytes) :
    Confined l (l ++ [name]) fun t => t.enterThen l ((name :: rest).map .into) f := by
  have hend : ∀ {t u : Tree} {k : Location}, t.get? l = some .directory →
      t.enter l ((name :: rest).map .into) = (u, some k) → u.get? k = some .directory ∧ l ++ [name] <+: k := by
    intro t u k hl henter
    obtain ⟨hwalk, hdir⟩ := walk_of_enter hl henter
    refine ⟨hdir, rest, ?_⟩
    rw [eq_follow_of_walk hwalk, Path.follow_map_into, List.append_assoc, List.singleton_append]
  constructor
  · intro t hl k hk
    have hsame := get?_enter_into hl hk rest
    rw [Tree.enterThen]
    rcases henter : t.enter l ((name :: rest).map .into) with ⟨v, _ | dir⟩
    · rwa [henter] at hsame
    · obtain ⟨hdir, hbelow⟩ := hend hl henter
      rw [henter] at hsame
      exact ((hf dir).frame hdir fun hk' => hk (hbelow.trans hk')).trans hsame
  · intro t u ht hu hagree
    obtain ⟨hplace, hsame⟩ := enter_into_congr (name :: rest) (by simp) ht hu hagree
    rw [Tree.enterThen, Tree.enterThen]
    rcases hentert : t.enter l ((name :: rest).map .into) with ⟨v, reached⟩
    rcases henteru : u.enter l ((name :: rest).map .into) with ⟨w, reached'⟩
    rw [hentert, henteru] at hplace hsame
    obtain rfl : reached = reached' := hsame
    cases reached with
    | none => exact ⟨hplace, rfl⟩
    | some dir =>
      obtain ⟨hdirt, hbelow⟩ := hend ht hentert
      obtain ⟨hdiru, -⟩ := hend hu henteru
      obtain ⟨hinside, hanswer⟩ := (hf dir).congr hdirt hdiru fun k hk => hplace k (hbelow.trans hk)
      refine ⟨fun k hk => ?_, hanswer⟩
      by_cases hk' : dir <+: k
      · exact hinside k hk'
      · rw [(hf dir).frame hdirt hk', (hf dir).frame hdiru hk', hplace k hk]

end Tree

end ErrnoBindings
