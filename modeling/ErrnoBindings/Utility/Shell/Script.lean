import ErrnoBindings.Utility.Shell.Token

/-!
# Scripts

A script is a tree of commands. The leaves are simple commands: assignments, words and redirections, none of which
are filled in before the command is run. Everything else puts commands together.
-/

namespace ErrnoBindings.Utility.Shell

/-- A redirection: the descriptor that is redirected, and what becomes of it. The target is the name of a file or of
a descriptor, or the body of a document. -/
structure Redirection where
  /-- the descriptor -/
  descriptor : Nat
  /-- what is done -/
  direction : Direction
  /-- what it is done with -/
  target : Word
  deriving DecidableEq, Repr

/-- A simple command. -/
structure Simple where
  /-- the assignments in front, by name -/
  assignments : List (Text × Word)
  /-- the name of the command and its arguments -/
  words : List Word
  /-- the redirections -/
  redirections : List Redirection
  deriving DecidableEq, Repr

mutual

/-- A script. -/
inductive Script where
  /-- nothing to do -/
  | nothing
  /-- a simple command -/
  | simple (c : Simple)
  /-- two commands, the second of which reads what the first prints -/
  | pipe (first second : Script)
  /-- a command the success of which is turned around -/
  | negated (s : Script)
  /-- a command, and another if the first succeeds -/
  | andThen (first second : Script)
  /-- a command, and another if the first fails -/
  | orElse (first second : Script)
  /-- a command and then another -/
  | inOrder (first second : Script)
  /-- a command that is not waited for -/
  | background (s : Script)
  /-- a command in a shell of its own -/
  | subshell (s : Script)
  /-- a command with redirections around it -/
  | redirected (s : Script) (redirections : List Redirection)
  /-- a condition, what is done if it succeeds, and what is done if it fails -/
  | choose (condition yes no : Script)
  /-- a condition, and what is done as long as it succeeds, or as long as it fails -/
  | loop (succeeds : Bool) (condition body : Script)
  /-- what is done for each of some words, or for each argument, with a variable that holds it -/
  | forEach (name : Text) (words : Option (List Word)) (body : Script)
  /-- a word, and the arms among which it chooses -/
  | select (subject : Word) (arms : Arms)
  /-- a function -/
  | define (name : Text) (body : Script)

/-- The arms among which a word chooses. -/
inductive Arms where
  /-- no arm -/
  | none
  /-- an arm, what it is chosen by, and the arms behind it -/
  | arm (patterns : List Word) (body : Script) (rest : Arms)

end

instance : Inhabited Script := ⟨.nothing⟩

/-- Two commands in order, where nothing behind the first adds nothing. -/
def Script.followedBy (first : Script) : Script → Script
  | .nothing => first
  | second => .inOrder first second

/-- A command with redirections around it, if there are any. -/
def Script.within (s : Script) : List Redirection → Script
  | [] => s
  | rs => .redirected s rs

end ErrnoBindings.Utility.Shell
