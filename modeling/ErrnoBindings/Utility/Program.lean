import ErrnoBindings.Utility.Cat
import ErrnoBindings.Utility.Echo
import ErrnoBindings.Utility.Printf.Basic

/-!
# Utilities by name

The utilities but for the shell, which is large, and can run the others. A utility is given what it can read of
files, its arguments with the name by which it was called, and what it can read by itself, if anything.
-/

namespace ErrnoBindings.Utility

/-- The directories in which utilities stand. -/
def places : List Text := ["/bin".toList, "/usr/bin".toList]

/-- The utility that a path in one of the places names. -/
def nameInPlace? (path : Text) : Option Text :=
  places.findSome? fun p => behind? (p ++ ['/']) path

/-- What a utility comes to that does nothing but succeed or fail. -/
def verdict (called : Text) (status : Nat) (name : Text) (args : List Text) : Finish :=
  match selfDescription? called name " [ignored command line arguments]".toList args with
  | some description => .print status description
  | none => .print status []

/-- Runs a utility by its name, and says whether it took what it reads by itself; none if there is no utility of
that name. -/
def run? (read : Text → Option Text) (name called : Text) (input : Option Text) (args : List Text) :
    Option (Finish × Bool) :=
  match String.ofList name with
  | "echo" => some (echo called args, false)
  | "printf" => some (printf called args, false)
  | "cat" =>
    let r := Cat.run read called input args
    some (.print r.status r.output, r.consumed)
  | "true" => some (verdict called 0 name args, false)
  | "false" => some (verdict called 1 name args, false)
  | _ => none

end ErrnoBindings.Utility
