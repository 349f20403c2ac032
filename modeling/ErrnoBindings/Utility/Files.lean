import ErrnoBindings.Tree.Walk
import ErrnoBindings.Utility.Basic

/-!
# Files as utilities see them

A utility runs in a directory of the tree and sees the tree from there. What lies outside of the tree is out of
sight: a path that begins at the root of the system, or that leads up and out of the tree, meets directories and
nothing else — with the exception of the null device, which is empty and takes everything.
-/

namespace ErrnoBindings.Utility.Files

/-- The null device. -/
def nullDevice : Text := "/dev/null".toList

/-- Whether steps lead up out of the tree from a depth. -/
def leads (depth : Nat) : List Step → Bool
  | [] => false
  | .here :: rest => leads depth rest
  | .into _ :: rest => leads (depth + 1) rest
  | .up :: rest => decide (depth = 0) || leads (depth - 1) rest

/-- Where a path leads from a directory. A place outside of the tree is taken for its top if it is a directory. -/
def locate (t : Tree) (directory : Location) (path : Text) : Except SystemError Location :=
  let octets := toOctets path
  let steps := Path.steps octets
  let outside := path.head? = some '/' ∨ leads directory.length steps = true
  match Path.check octets with
  | .error e => .error e
  | .ok () =>
    if path = [] then .error .notFound
    else if outside then
      if steps.all (fun s => s == .here || s == .up) then .ok [] else .error .notFound
    else t.walk directory steps

/-- What stands where a path leads. -/
def get? (t : Tree) (directory : Location) (path : Text) : Option Node :=
  match locate t directory path with
  | .ok l => t.get? l
  | .error _ => none

/-- What can be read at a path. -/
def read? (t : Tree) (directory : Location) (path : Text) : Option Text :=
  if path = nullDevice then some []
  else match get? t directory path with
    | some (.file contents) => some (ofOctets contents)
    | _ => none

/-- Writes a file at a path, or adds to the one that is there: the tree afterwards, and where the file stands. -/
def write? (t : Tree) (directory : Location) (path contents : Text) (keep : Bool) : Option (Tree × Location) :=
  match locate t directory path with
  | .error _ => none
  | .ok l =>
    let old : Text :=
      match t.get? l, keep with
      | some (.file octets), true => ofOctets octets
      | _, _ => []
    let node : Node := .file (toOctets (old ++ contents))
    let name := l.getLastD []
    if l ≠ [] ∧ path.getLast? ≠ some '/' ∧ t.Settable l.dropLast name node then some (t.put l.dropLast name node, l)
    else none

/-- The names in a directory, in order. -/
def names (t : Tree) (directory : Location) : List Text :=
  t.entries.filterMap fun e =>
    if e.1.dropLast = directory ∧ e.1 ≠ [] then some (ofOctets (e.1.getLastD [])) else none

end ErrnoBindings.Utility.Files
