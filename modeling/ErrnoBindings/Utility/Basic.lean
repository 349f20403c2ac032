import ErrnoBindings.CLiteral.Reader
import ErrnoBindings.Command.Basic

/-!
# Utilities

A listing command may name one of a few small programs that come with this library, so that a run with such a
command is a function of its inputs like any other. They are the ones that a captured or made-up listing is
usually printed with: `echo`, `printf`, `cat`, `true`, `false`, and a shell for short scripts.

A utility works on octets, and octets are handled here as characters below `U+0100`, one for one, so that the
utilities can be written like everything else. Its own complaints on standard error are left out; what a script
sends there on purpose is kept.
-/

namespace ErrnoBindings.Utility

/-- Octets as characters, one for one. -/
def ofOctets (b : Bytes) : Text := b.map fun x => Char.ofNat x.toNat

/-- Characters as octets, one for one. -/
def toOctets (t : Text) : Bytes := t.map fun c => UInt8.ofNat c.toNat

/-- What a utility leaves behind. -/
structure Finish where
  /-- how it ended -/
  ending : Ending
  /-- what it printed -/
  output : Text
  /-- what it was told to print on standard error -/
  errors : Text
  deriving DecidableEq, Repr

namespace Finish

/-- The end of a utility that printed something and gave a status. -/
def print (status : Nat) (output : Text) : Finish := ⟨.exited status, output, []⟩

/-- The same in octets, with the tree afterwards. -/
def execution (f : Finish) (tree : Tree) : Execution := ⟨f.ending, toOctets f.output, toOctets f.errors, tree⟩

end Finish

/-! ## Descriptions -/

/-- The first line of a utility's help. The lines behind it are left out: nothing that reads a listing gets past
the first. -/
def helpLine (called usage : Text) : Text := "Usage: ".toList ++ called ++ usage ++ ['\n']

/-- The first line of what a utility says about its version. -/
def versionLine (name : Text) : Text := name ++ " (GNU coreutils) 9.1\n".toList

/-- What a utility says about itself when its only argument asks for it. -/
def selfDescription? (called name usage : Text) (args : List Text) : Option Text :=
  if args = ["--help".toList] then some (helpLine called usage)
  else if args = ["--version".toList] then some (versionLine name)
  else none

end ErrnoBindings.Utility
