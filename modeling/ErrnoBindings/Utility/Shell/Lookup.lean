import ErrnoBindings.Utility.Program
import ErrnoBindings.Utility.Shell.Grammar
import ErrnoBindings.Utility.Shell.Machine

/-!
# What the name of a command stands for

The name of a command is looked up among the special commands of the shell, its functions, its other commands, and
then among programs. A program is looked for in the directories that a variable lists; a name with a slash in it is
the path of a program itself. What stands in the tree of files is never a program.
-/

namespace ErrnoBindings.Utility.Shell

/-- What the name of a command stands for. -/
inductive Callee where
  /-- a command of the shell that a script cannot change -/
  | special
  /-- a function -/
  | function (body : Script)
  /-- a command of the shell -/
  | builtin
  /-- a program, with the path at which it is -/
  | program (name path : Text)
  /-- nothing that could be run; the status says why -/
  | missing (status : Nat)

namespace Callee

/-- The commands of the shell but for the special ones. -/
def builtins : List String :=
  ["alias", "bg", "cd", "chdir", "command", "echo", "false", "fg", "getopts", "hash", "jobs", "kill", "printf", "pwd",
    "read", "test", "[", "true", "type", "ulimit", "umask", "unalias", "wait"]

/-- The programs. -/
def programs : List String := ["cat", "echo", "false", "printf", "sh", "true"]

/-- Whether a text is one of some names. -/
def among (names : List String) (t : Text) : Bool := names.any fun n => n.toList == t

/-- The status of a command that is not there. -/
def notFound : Nat := 127

/-- The status of a command that is there and cannot be run. -/
def notRunnable : Nat := 126

/-- The directories that a list of paths names. -/
def directories (paths : Text) : List Text :=
  paths.foldr (fun c found => if c = ':' then [] :: found else attach c found) [[]]

/-- The program that a name stands for in a directory. -/
def inDirectory? (name directory : Text) : Option Callee :=
  if places.elem directory ∧ among programs name then some (program name (directory ++ '/' :: name)) else none

/-- The program that a name stands for. -/
def programOf (t : Tree) (p : Process) (name : Text) : Callee :=
  if name.elem '/' then
    match nameInPlace? name with
    | some n => if among programs n then program n name else missing notFound
    | none =>
      let there := name == Files.nullDevice || (Files.get? t p.directory name).isSome
      missing (if there then notRunnable else notFound)
  else
    match (directories ((p.value? "PATH".toList).getD [])).findSome? (inDirectory? name) with
    | some found => found
    | none => missing notFound

/-- What a name stands for. -/
def of (t : Tree) (p : Process) (functions : Bool) (name : Text) : Callee :=
  if among Grammar.specials name then special
  else match if functions then p.functions.find? fun f => f.1 == name else none with
    | some f => function f.2
    | none => if among builtins name then builtin else programOf t p name

/-- What a name stands for, in few words or in more. -/
def describe (t : Tree) (p : Process) (inWords : Bool) (name : Text) : Option Text :=
  let words (w : String) : Text := if inWords then name ++ " is ".toList ++ w.toList else name
  if among Grammar.reserved name then some (words "a shell keyword")
  else match of t p true name with
    | special => some (words "a special shell builtin")
    | function _ => some (words "a shell function")
    | builtin => some (words "a shell builtin")
    | program _ path => some (if inWords then name ++ " is ".toList ++ path else path)
    | missing _ => none

end Callee

end ErrnoBindings.Utility.Shell
