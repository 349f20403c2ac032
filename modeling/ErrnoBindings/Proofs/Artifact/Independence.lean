import ErrnoBindings.Proofs.Artifact.Writing
import ErrnoBindings.Proofs.Tree.Entering

/-!
# The two artifacts do not get in each other's way

The declarations and the definitions are written under one root. The way to the root is the same for both: the first
of two writes makes the directories that are missing on it, and the second one finds them or is stopped where the
first one was. In the root, each write has a directory of its own, and is confined to it
(`Artifact.interchangeable_in_root`). In the directory of its file, a write can be done again without effect
(`Artifact.repeatable_place`). From this it follows that the two artifacts can be written in any order, and each of
them twice (`Artifact.write_comm_and_repeat`).

Only the reason of a refusal can depend on what was written before: the system has one for a file on the way to a
directory and another once a directory had to be made. So answers are compared without it (`Artifact.attempt`).
-/

namespace ErrnoBindings

namespace Path

/-- The steps that a root puts in front of a path behind it. -/
def rootSteps (root : Bytes) : List Step :=
  if root = [] then []
  else if root.getLast? = some separator then steps root.dropLast
  else steps root

theorem steps_join (root path : Bytes) : steps (join root path) = rootSteps root ++ steps path := by
  rw [join, rootSteps]
  split
  · rfl
  · split
    · next hlast =>
      obtain ⟨front, rfl⟩ := List.getLast?_eq_some_iff.mp hlast
      rw [List.dropLast_concat, List.append_assoc, List.singleton_append, steps_append_separator]
    · exact steps_append_separator root path

end Path

/-! ## Publishing in a directory -/

namespace Tree

section Publish

variable {t : Tree} {dir : Location} {staged name : Bytes}

/-- What stands in the tree after a file was published, or was not. -/
theorem get?_publish (hdir : t.get? dir = some .directory) (hne : staged ≠ name) (contents : Bytes) (k : Location) :
    (t.publish dir staged name contents).1.get? k =
      if t.get? (dir ++ [staged]) = some .directory then t.get? k
      else if k = dir ++ [staged] then none
      else if k = dir ++ [name] ∧ t.get? (dir ++ [name]) ≠ some .directory then some (.file contents)
      else t.get? k := by
  by_cases hstaged : t.get? (dir ++ [staged]) = some .directory
  · rw [publish_of_unstaged hstaged, if_pos hstaged]
  · rw [if_neg hstaged]
    by_cases hname : t.get? (dir ++ [name]) = some .directory
    · obtain ⟨v, hpublish, hview⟩ := publish_of_occupied hdir hstaged hne hname contents
      simp [hpublish, hview, hname]
    · obtain ⟨v, hpublish, hview⟩ := publish_of_free hdir hstaged hne hname contents
      simp [hpublish, hview, hname]

/-- A file is published when no directory has one of the two names; the one refusal is that one has. -/
theorem publish_answer (hdir : t.get? dir = some .directory) (hne : staged ≠ name) (contents : Bytes) :
    (t.publish dir staged name contents).2 =
      if t.get? (dir ++ [staged]) = some .directory ∨ t.get? (dir ++ [name]) = some .directory then
        .error .isADirectory
      else .ok () := by
  by_cases hstaged : t.get? (dir ++ [staged]) = some .directory
  · rw [publish_of_unstaged hstaged, if_pos (Or.inl hstaged)]
  · by_cases hname : t.get? (dir ++ [name]) = some .directory
    · obtain ⟨v, hpublish, -⟩ := publish_of_occupied hdir hstaged hne hname contents
      rw [hpublish, if_pos (Or.inr hname)]
    · obtain ⟨v, hpublish, -⟩ := publish_of_free hdir hstaged hne hname contents
      rw [hpublish, if_neg (not_or.mpr ⟨hstaged, hname⟩)]

/-- Publishing neither touches nor looks at anything but entries of its directory. -/
theorem confined_publish (dir : Location) (hne : staged ≠ name) (contents : Bytes) :
    Confined dir dir fun t => t.publish dir staged name contents where
  frame {t} hdir k hk := by
    have hentry : ∀ n : Bytes, k ≠ dir ++ [n] := fun n h => hk (h ▸ List.prefix_append dir [n])
    rw [get?_publish hdir hne]
    split
    · rfl
    · rw [if_neg (hentry staged), if_neg fun h => hentry name h.1]
  congr {t u} ht hu hagree := by
    have hentry : ∀ n : Bytes, t.get? (dir ++ [n]) = u.get? (dir ++ [n]) := fun n =>
      hagree _ (List.prefix_append dir [n])
    refine ⟨fun k hk => ?_, ?_⟩
    · rw [get?_publish ht hne, get?_publish hu hne, hentry, hentry, hagree k hk]
    · rw [publish_answer ht hne, publish_answer hu hne, hentry, hentry]

/-- Publishing takes no directory away, and a file that is published again is published over itself. -/
theorem repeatable_publish (dir : Location) (hne : staged ≠ name) (contents : Bytes) :
    Repeatable dir fun t => t.publish dir staged name contents := by
  have hkeeps : ∀ {t : Tree}, t.get? dir = some .directory → ∀ {k : Location}, t.get? k = some .directory →
      (t.publish dir staged name contents).1.get? k = some .directory := by
    intro t hdir k hk
    rw [get?_publish hdir hne]
    split
    · exact hk
    · next hstaged =>
      have hkstaged : k ≠ dir ++ [staged] := fun h => hstaged (h ▸ hk)
      have hkname : ¬(k = dir ++ [name] ∧ t.get? (dir ++ [name]) ≠ some .directory) := fun h => h.2 (h.1 ▸ hk)
      rw [if_neg hkstaged, if_neg hkname, hk]
  refine ⟨hkeeps, fun {t} hdir => ?_⟩
  by_cases hstaged : t.get? (dir ++ [staged]) = some .directory
  · simp only [publish_of_unstaged hstaged]
  · have hview := get?_publish hdir hne contents
    simp only [if_neg hstaged] at hview
    have hdir' := hkeeps hdir hdir
    -- nothing has the staging name any more, and the same directories have the other
    have hnone : (t.publish dir staged name contents).1.get? (dir ++ [staged]) = none := by
      rw [hview, if_pos rfl]
    have hname : (t.publish dir staged name contents).1.get? (dir ++ [name]) = some .directory ↔
        t.get? (dir ++ [name]) = some .directory := by
      have hapart : dir ++ [name] ≠ dir ++ [staged] := by simpa using hne.symm
      by_cases hdirectory : t.get? (dir ++ [name]) = some .directory <;> simp [hview, hapart, hdirectory]
    refine Prod.ext (ext_get? fun k => ?_) ?_
    · rw [get?_publish hdir' hne, hnone, if_neg nofun]
      by_cases hkstaged : k = dir ++ [staged]
      · rw [if_pos hkstaged, hkstaged, hnone]
      · simp only [ne_eq, hname, hview k, if_neg hkstaged]
        split <;> rfl
    · rw [publish_answer hdir' hne, publish_answer hdir hne]
      simp only [hnone, hname, hstaged, reduceCtorEq]

end Publish

end Tree

namespace Artifact

/-! ## A write without the reason of its refusal -/

/-- What a write comes to when nobody asks for the reason of a refusal. -/
def attempt (a : Artifact) (root : Bytes) (contents : Text) (t : Tree) : Tree × Option Bytes :=
  Prod.map id Except.toOption (a.write root contents t)

/-- The part of a write that is done in the directory of the file. -/
def place (a : Artifact) (root : Bytes) (contents : Text) (dir : Location) : Tree → Tree × Option Bytes :=
  match Path.check (a.stagingPath root) with
  | .error _ => fun t => (t, none)
  | .ok () => fun t =>
    Prod.map id (fun answer => answer.toOption.map fun _ => a.destination root)
      (t.publish dir (Utf8.encode a.stagingName) (Utf8.encode a.fileName) (Utf8.encode contents))

section Attempt

variable {a : Artifact} {root : Bytes}

/-- If the system does not look at the path of the directory, nothing happens. -/
theorem attempt_of_unchecked {e : SystemError} (h : Path.check (a.parentPath root) = .error e) (contents : Text) :
    a.attempt root contents = fun t => (t, none) := by
  funext t
  rw [attempt, write, Tree.makeDirectories, h]
  rfl

/-- If it does, the way to the directory is made, and then the file is placed there. -/
theorem attempt_of_checked (h : Path.check (a.parentPath root) = .ok ()) (contents : Text) :
    a.attempt root contents =
      fun t => t.enterThen [] (Path.steps (a.parentPath root)) (a.place root contents) := by
  funext t
  rw [attempt, write, Tree.makeDirectories, h, Tree.enterThen, ← Tree.descend_eq_enter t [] false]
  dsimp only
  rcases t.descend [] false (Path.steps (a.parentPath root)) with ⟨u, e | dir⟩
  · rfl
  · dsimp only [Except.toOption]
    rw [place]
    cases Path.check (a.stagingPath root) with
    | error e => rfl
    | ok =>
      dsimp only
      rcases u.publish dir (Utf8.encode a.stagingName) (Utf8.encode a.fileName) (Utf8.encode contents) with ⟨v, e | _⟩
      · rfl
      · rfl

end Attempt

/-! ## What is done in the directory -/

/-- A file can be placed again. -/
theorem repeatable_place (a : Artifact) (root : Bytes) (contents : Text) (dir : Location) :
    Tree.Repeatable dir (a.place root contents dir) := by
  rw [place]
  cases Path.check (a.stagingPath root) with
  | error e => exact .idle dir none
  | ok => exact (Tree.repeatable_publish dir (encode_stagingName_ne a) _).map _

/-- A file is placed without a look beyond its directory. -/
theorem confined_place (a : Artifact) (root : Bytes) (contents : Text) (dir : Location) :
    Tree.Confined dir dir (a.place root contents dir) := by
  rw [place]
  cases Path.check (a.stagingPath root) with
  | error e => exact .idle dir dir none
  | ok => exact (Tree.confined_publish dir (encode_stagingName_ne a) _).map _

/-! ## What is done in the root -/

/-- The way to the directory of the file leads through the root, and from there into names. -/
theorem steps_parentPath (a : Artifact) (root : Bytes) :
    Path.steps (a.parentPath root) =
      Path.rootSteps root ++ [Utf8.encode a.directory, Utf8.encode "host".toList].map .into := by
  rw [parentPath, Path.steps_join]
  cases a <;> rfl

theorem encode_directory_ne {a b : Artifact} (hab : a ≠ b) : Utf8.encode a.directory ≠ Utf8.encode b.directory := by
  revert hab
  cases a <;> cases b <;> decide

/-- In the root, a write is done in a directory of its own. -/
theorem interchangeable_in_root {a b : Artifact} (hab : a ≠ b) (root : Bytes) (c d : Text) (dir : Location) :
    Tree.Interchangeable dir
      (fun t => t.enterThen dir ([Utf8.encode a.directory, Utf8.encode "host".toList].map .into) (a.place root c))
      (fun t => t.enterThen dir ([Utf8.encode b.directory, Utf8.encode "host".toList].map .into) (b.place root d)) := by
  have hbelow : ∀ name : Bytes, ¬ dir ++ [name] <+: dir := by
    intro name h
    have hlength := h.length_le
    rw [List.length_append, List.length_singleton] at hlength
    omega
  refine (Tree.Confined.enterThen (confined_place a root c) dir _ _).interchangeable
    (Tree.Confined.enterThen (confined_place b root d) dir _ _) (fun k hak hbk => ?_) (hbelow _) (hbelow _)
  -- two names of one length in front of the same place are one name
  have hsame := List.prefix_of_prefix_length_le hak hbk (by simp)
  obtain ⟨-, hname⟩ := List.append_inj' (hsame.eq_of_length (by simp)) rfl
  exact encode_directory_ne hab (List.singleton_inj.mp hname)

/-! ## Two writes -/

/-- Two attempts at different artifacts can change places. -/
theorem interchangeable_attempt {a b : Artifact} (hab : a ≠ b) (root : Bytes) (c d : Text) :
    Tree.Interchangeable [] (a.attempt root c) (b.attempt root d) := by
  cases ha : Path.check (a.parentPath root) with
  | error e =>
    rw [attempt_of_unchecked ha]
    exact fun _ _ => ⟨rfl, rfl, rfl⟩
  | ok =>
    cases hb : Path.check (b.parentPath root) with
    | error e =>
      rw [attempt_of_unchecked hb]
      exact fun _ _ => ⟨rfl, rfl, rfl⟩
    | ok =>
      rw [attempt_of_checked ha, attempt_of_checked hb]
      simp only [steps_parentPath, Tree.enterThen_append]
      exact Tree.Interchangeable.enterThen (fun k => Tree.Repeatable.enterThen (repeatable_place a root c) k _)
        (fun k => Tree.Repeatable.enterThen (repeatable_place b root d) k _)
        (interchangeable_in_root hab root c d) [] _

/-- An attempt can be made again. -/
theorem repeatable_attempt (a : Artifact) (root : Bytes) (contents : Text) :
    Tree.Repeatable [] (a.attempt root contents) := by
  cases hcheck : Path.check (a.parentPath root) with
  | error e =>
    rw [attempt_of_unchecked hcheck]
    exact .idle [] none
  | ok =>
    rw [attempt_of_checked hcheck]
    exact Tree.Repeatable.enterThen (repeatable_place a root contents) [] _

/-- What an attempt wrote can be read. -/
theorem readFile_of_attempt {a : Artifact} {root path : Bytes} {contents : Text} {t : Tree}
    (h : (a.attempt root contents t).2 = some path) :
    (a.attempt root contents t).1.readFile path = .ok (Utf8.encode contents) := by
  rw [attempt] at h ⊢
  rcases hwrite : a.write root contents t with ⟨u, f | written⟩
  · rw [hwrite] at h
    cases h
  · rw [hwrite] at h
    cases h
    exact (written_of_write hwrite).destination

/-- **The two artifacts do not get in each other's way, and a write can be repeated.** Under one root, the
declarations and the definitions can be written in either order: the tree is the same afterwards, so is whether each
of them was written, and each that was can be read behind both. An artifact that is written again with the same
contents leaves the tree as it is, and is written again if it was written before. -/
theorem write_comm_and_repeat (root : Bytes) (t : Tree) :
    (∀ header source : Text,
      (definitions.write root source (declarations.write root header t).1).1 =
          (declarations.write root header (definitions.write root source t).1).1 ∧
        (declarations.write root header (definitions.write root source t).1).2.toOption =
          (declarations.write root header t).2.toOption ∧
        (definitions.write root source (declarations.write root header t).1).2.toOption =
          (definitions.write root source t).2.toOption ∧
        (∀ path, (declarations.write root header t).2.toOption = some path →
          (definitions.write root source (declarations.write root header t).1).1.readFile path =
            .ok (Utf8.encode header)) ∧
        (∀ path, (definitions.write root source t).2.toOption = some path →
          (definitions.write root source (declarations.write root header t).1).1.readFile path =
            .ok (Utf8.encode source))) ∧
      ∀ (a : Artifact) (contents : Text),
        (a.write root contents (a.write root contents t).1).1 = (a.write root contents t).1 ∧
          (a.write root contents (a.write root contents t).1).2.toOption = (a.write root contents t).2.toOption := by
  refine ⟨fun header source => ?_, fun a contents => ?_⟩
  · have hapart : declarations ≠ definitions := by decide
    obtain ⟨htree, hheader, hsource⟩ := interchangeable_attempt hapart root header source t t.get?_nil
    refine ⟨htree, hheader, hsource, fun path hpath => ?_, fun path hpath => readFile_of_attempt (hsource.trans hpath)⟩
    -- the declarations might as well have been written last
    have hread := readFile_of_attempt (hheader.trans hpath)
    rwa [← htree] at hread
  · obtain ⟨htree, hanswer⟩ := Prod.ext_iff.mp ((repeatable_attempt a root contents).again t.get?_nil)
    exact ⟨htree, hanswer⟩

/-- The reason of a refusal is another one when the write is repeated: here the way to the root leads into a directory
that is missing, out of it again and into a file. -/
example :
    let t := Tree.empty.put [] (Utf8.encode "codes".toList) (.file [])
    let root := Utf8.encode "out/../codes".toList
    (declarations.write root [] t).2 = .error (declarations.unwritable root .alreadyExists) ∧
      (declarations.write root [] (declarations.write root [] t).1).2 =
        .error (declarations.unwritable root .notADirectory) :=
  ⟨rfl, rfl⟩

end Artifact

end ErrnoBindings
