import ErrnoBindings.Path
import ErrnoBindings.Tree.Basic

/-!
# Walking and reading

To read a file, the system walks the steps of its path one after the other from the top directory. Each step has
to be taken in a directory, a step into a name may lead to a place where nothing stands, and only the next step,
or the reading itself, finds that out. There are no links, so a walk ends where its steps say it ends, and a step
up from the top directory stays there.
-/

namespace ErrnoBindings.Tree

/-- Walks some steps from a location. -/
def walk (t : Tree) : Location → List Step → Except SystemError Location
  | l, [] => .ok l
  | l, s :: rest =>
    match t.get? l with
    | none => .error .notFound
    | some (.file _) => .error .notADirectory
    | some .directory =>
      match s with
      | .here => walk t l rest
      | .up => walk t l.dropLast rest
      | .into name =>
        if Path.longestName < name.length then .error .nameTooLong
        else walk t (l ++ [name]) rest

/-- The location that a path leads to, whether or not anything stands there. An empty path leads nowhere. -/
def locate (t : Tree) (path : Bytes) : Except SystemError Location :=
  match Path.check path with
  | .error e => .error e
  | .ok () => if path = [] then .error .notFound else t.walk [] (Path.steps path)

/-- What the regular file at a path holds. -/
def readFile (t : Tree) (path : Bytes) : Except SystemError Bytes :=
  match t.locate path with
  | .error e => .error e
  | .ok l =>
    match t.get? l with
    | none => .error .notFound
    | some .directory => .error .isADirectory
    | some (.file contents) => .ok contents

/-- A file that is read stands where its path leads. -/
theorem readFile_eq_ok_iff {t : Tree} {path contents : Bytes} :
    t.readFile path = .ok contents ↔ ∃ l, t.locate path = .ok l ∧ t.get? l = some (.file contents) := by
  unfold readFile
  split
  · next e h => simp [h]
  · next l h =>
    split
    · next hl => simp [h, hl]
    · next hl => simp [h, hl]
    · next c hl => simp [h, hl]

end ErrnoBindings.Tree
