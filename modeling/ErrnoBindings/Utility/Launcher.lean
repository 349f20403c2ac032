import ErrnoBindings.Tree.Walk
import ErrnoBindings.Utility.Shell.Basic

/-!
# Launching utilities

A command is launched by the name of its program. A name with a separator in it is a path: whatever stands there is
no program that could be run, but it is looked at, and the refusal says what is wrong with it. A name without one
is looked up among the utilities, in their usual places.
-/

namespace ErrnoBindings.Utility

/-- A utility by name, run with what it was called: what it leaves behind in a tree. It reads nothing by itself. -/
def execute? (env : Environment) (t : Tree) (name called : Text) (args : List Text) : Option Execution :=
  if name = "sh".toList then
    let (f, after) := shell env t called args
    some (f.execution after)
  else (run? (Files.read? t []) name called (some []) args).map fun r => r.1.execution t

/-- What a program's path is refused for. -/
def refusal (t : Tree) (path : Bytes) : SystemError :=
  match t.locate path with
  | .error e => e
  | .ok l => if (t.get? l).isSome then .permissionDenied else .notFound

/-- Launches a utility. -/
def launch (env : Environment) : Launcher := fun t c =>
  let name := ofOctets c.program
  let args := c.arguments.map ofOctets
  if c.program.elem 0 ∨ c.arguments.any (fun a => a.elem 0) then .refused .nulInCommand
  else if c.program.elem Path.separator then
    match (nameInPlace? name).bind fun n => execute? env t n name args with
    | some e => .ran e
    | none => .refused (refusal t c.program)
  else if Path.longestName < c.program.length then .refused .nameTooLong
  else if name = ".".toList ∨ name = "..".toList then .refused .permissionDenied
  else
    match execute? env t name name args with
    | some e => .ran e
    | none => .refused .notFound

/-- The utilities in an environment in which nothing is set. -/
def bare : Launcher := launch fun _ => none

end ErrnoBindings.Utility
