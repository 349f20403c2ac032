import ErrnoBindings.Path
import ErrnoBindings.Tree.Basic

/-!
# Making directories

Before a file is written, the directories on the way to it are made. `Tree.descend` goes down the steps of a path
from a directory and makes each directory that is missing; it ends in the directory that the steps lead to. It
fails where a regular file stands in the way, or at a name that is too long, and what it made before that stays.

Which refusal a file in the way earns depends on how far the way had been there already. As long as nothing had to
be made and steps remain behind the file, the system was asked for the whole way at once and found something that
is *not a directory*; once a directory had to be made, or at the last step, it was asked for this very directory
and found that something *already exists*.
-/

namespace ErrnoBindings.Tree

/-- Goes down some steps from a directory and makes the directories that are missing. `made` says whether one has
been made on the way already. -/
def descend (t : Tree) (l : Location) (made : Bool) : List Step → Tree × Except SystemError Location
  | [] => (t, .ok l)
  | .here :: rest => descend t l made rest
  | .up :: rest => descend t l.dropLast made rest
  | .into name :: rest =>
    if Path.longestName < name.length then (t, .error .nameTooLong)
    else
      match t.get? (l ++ [name]) with
      | some .directory => descend t (l ++ [name]) made rest
      | some (.file _) =>
        (t, .error (if made = true ∨ rest = [] then .alreadyExists else .notADirectory))
      | none => descend (t.put l name .directory) (l ++ [name]) true rest

/-- Makes the directory at a path, with the directories on the way to it. -/
def makeDirectories (t : Tree) (path : Bytes) : Tree × Except SystemError Location :=
  match Path.check path with
  | .error e => (t, .error e)
  | .ok () => t.descend [] false (Path.steps path)

/-- A directory that is made in a directory stands there, and everything else is as it was. -/
theorem get?_put_directory {t : Tree} {l : Location} (hl : t.get? l = some .directory) (name : Bytes) (k : Location) :
    (t.put l name .directory).get? k = if k = l ++ [name] then some .directory else t.get? k :=
  get?_put ⟨hl, fun _ => rfl⟩ k

/-- Whatever stood before a descent stands after it. -/
theorem get?_descend_of_some {t : Tree} {l k : Location} {made : Bool} {steps : List Step} {n : Node}
    (hl : t.get? l = some .directory) (hk : t.get? k = some n) :
    (t.descend l made steps).1.get? k = some n := by
  induction steps generalizing t l made with
  | nil => exact hk
  | cons s rest ih =>
    cases s with
    | here => exact ih hl hk
    | up => exact ih (get?_dropLast hl) hk
    | into name =>
      rw [descend]
      split
      · exact hk
      · split
        · next hdir => exact ih hdir hk
        · exact hk
        · next hnone =>
          -- a directory is made where nothing stood, so nothing that stood is touched
          refine ih (by rw [get?_put_directory hl, if_pos rfl]) ?_
          rw [get?_put_directory hl, if_neg, hk]
          intro he
          rw [he, hnone] at hk
          cases hk

/-- A descent that gets to its end ends in a directory. -/
theorem get?_of_descend {t : Tree} {l k : Location} {made : Bool} {steps : List Step}
    (hl : t.get? l = some .directory) (h : (t.descend l made steps).2 = .ok k) :
    (t.descend l made steps).1.get? k = some .directory := by
  induction steps generalizing t l made with
  | nil =>
    cases h
    exact hl
  | cons s rest ih =>
    cases s with
    | here => exact ih hl h
    | up => exact ih (get?_dropLast hl) h
    | into name =>
      rw [descend] at h ⊢
      split at h
      · cases h
      · next hlong =>
        rw [if_neg hlong]
        split at h
        · next hdir => exact ih hdir h
        · cases h
        · exact ih (by rw [get?_put_directory hl, if_pos rfl]) h

end ErrnoBindings.Tree
