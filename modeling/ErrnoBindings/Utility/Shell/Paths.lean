import ErrnoBindings.Utility.Files
import ErrnoBindings.Utility.Shell.Pattern

/-!
# Paths from patterns

A field with special characters in it stands for the paths that match it, in order. A slash is only matched by a
slash, so the names between slashes are matched one after the other; and a dot in front of a name is only matched by
a dot. A pattern that nothing matches stands for itself, which is left to whoever asks.
-/

namespace ErrnoBindings.Utility.Shell.Paths

/-- The parts of a pattern between slashes. -/
def parts : List (Char × Bool) → List (List (Char × Bool))
  | [] => [[]]
  | (c, quoted) :: rest =>
    if c = '/' then [] :: parts rest
    else match parts rest with
      | [] => [[(c, quoted)]]
      | p :: ps => ((c, quoted) :: p) :: ps

/-- The names in the directory at a path, which is empty for the directory itself; none outside of the tree. -/
def namesAt (t : Tree) (directory : Location) (path : Text) : List Text :=
  let steps := Path.steps (toOctets path)
  if path.head? = some '/' ∨ Files.leads directory.length steps = true then []
  else match t.walk directory steps with
    | .ok l => if t.get? l = some .directory then ['.'] :: ['.', '.'] :: Files.names t l else []
    | .error _ => []

/-- Whether a name matches a part of a pattern. -/
def isMatch (part : List (Char × Bool)) (name : Text) : Bool :=
  Pattern.accepts (Pattern.ofMarked part) name &&
    (name.head? != some '.' || (part.head?.map Prod.fst) == some '.')

/-- The paths that begin in some way and go on with names that match parts of a pattern. -/
def extend (t : Tree) (directory : Location) (begun : Text) : List (List (Char × Bool)) → List Text
  | [] => []
  | [part] =>
    if Pattern.isSpecial part then
      ((namesAt t directory begun).filter (isMatch part)).map fun name => begun ++ name
    else
      let path := begun ++ part.map Prod.fst
      if (Files.get? t directory path).isSome then [path] else []
  | part :: rest =>
    let names :=
      if Pattern.isSpecial part then (namesAt t directory begun).filter (isMatch part)
      else [part.map Prod.fst]
    names.flatMap fun name => extend t directory (begun ++ name ++ ['/']) rest

/-- The paths that match a pattern, in order. -/
def ofPattern (t : Tree) (directory : Location) (marked : List (Char × Bool)) : List Text :=
  if Pattern.isSpecial marked then (extend t directory [] (parts marked)).mergeSort fun a b => !decide (b < a)
  else []

end ErrnoBindings.Utility.Shell.Paths
