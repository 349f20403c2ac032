import ErrnoBindings.Fault.System
import ErrnoBindings.Text.Utf8
import ErrnoBindings.Text.Words
import ErrnoBindings.Tree.Basic

/-!
# Listing commands

A table can come from a program that is run for it: by default the host's own listing of its error codes. A
command is a program and its arguments. From a command line it is made by splitting at blanks and nothing else —
there is no quoting — and it is described by putting single spaces back.

Who runs a command is left open. A `Launcher` is any answer to the question what becomes of a command in a tree, and
a command may leave the tree changed.
-/

namespace ErrnoBindings

/-- A program with its arguments. -/
structure Command where
  /-- the name or the path of the program -/
  program : Bytes
  /-- the arguments -/
  arguments : List Bytes
  deriving DecidableEq, Repr

namespace Command

/-- The command of a command line; none if it has no word. -/
def ofLine (line : Text) : Option Command :=
  match words line with
  | [] => none
  | program :: arguments => some ⟨Utf8.encode program, arguments.map Utf8.encode⟩

/-- The command in words: the program and its arguments with single spaces between them. -/
def describe (c : Command) : Text := joinWords ((c.program :: c.arguments).map Utf8.decodeLossy)

/-- The command that is run when none is named: the host's listing of its error codes. -/
def standard : Command := ⟨Utf8.encode "errno".toList, [Utf8.encode "-l".toList]⟩

theorem ofLine_eq_none_iff {line : Text} : ofLine line = none ↔ words line = [] := by
  unfold ofLine
  split <;> simp_all

theorem ofLine_of_words {line p : Text} {ps : List Text} (h : words line = p :: ps) :
    ofLine line = some ⟨Utf8.encode p, ps.map Utf8.encode⟩ := by
  rw [ofLine, h]

/-- A command whose words are texts is described by these words. -/
theorem describe_encode (p : Text) (ps : List Text) :
    describe ⟨Utf8.encode p, ps.map Utf8.encode⟩ = joinWords (p :: ps) := by
  simp [describe, Function.comp_def]

end Command

/-! ## Running -/

/-- What a command that was run left behind. -/
structure Execution where
  /-- how it ended -/
  ending : Ending
  /-- what it printed -/
  output : Bytes
  /-- what it printed on standard error -/
  errors : Bytes
  /-- the tree afterwards -/
  tree : Tree

/-- What became of a request to run a command. -/
inductive Launch where
  /-- the system refused to start it -/
  | refused (e : SystemError)
  /-- it was run to its end -/
  | ran (e : Execution)

/-- An answer to the question what becomes of a command in a tree. -/
abbrev Launcher := Tree → Command → Launch

/-- A launcher that starts nothing. -/
def Launcher.offline : Launcher := fun _ _ => .refused .notFound

end ErrnoBindings
