import ErrnoBindings.Fault.System
import ErrnoBindings.Text.Utf8

/-!
# Faults

A run can fail in four ways, and each has an exit status of its own:

1. the command line was not understood (`Fault.usage`);
2. no error table could be read (`Fault.sourceUnavailable`);
3. a row of the table is malformed (`Fault.malformedRow`) — the fault keeps the line and a span of it, so that a
   report can point at the place;
4. the artifact could not be written (`Fault.destinationUnwritable`).

A fault is kept as its cause. Its message, its help line and its code are read off the cause here and nowhere
else.
-/

namespace ErrnoBindings

/-- What is wrong with a row of a listing. -/
inductive RowDefect where
  /-- the line has no word at all -/
  | missingSymbol
  /-- the line has a symbol and nothing behind it -/
  | missingValue
  /-- the second word is not a decimal integer of 64 bits -/
  | invalidValue
  deriving DecidableEq, Repr

/-- The label that a report puts under the offending place. -/
def RowDefect.label : RowDefect → Text
  | missingSymbol => "expected an error symbol".toList
  | missingValue => "expected a numeric value after the symbol".toList
  | invalidValue => "value is not a base-10 integer".toList

/-- A stretch of a line, counted in octets. -/
structure Span where
  /-- the octets before the stretch -/
  offset : Nat
  /-- the octets of the stretch -/
  length : Nat
  deriving DecidableEq, Repr

/-- Why a table could not be read, or an artifact not be written. -/
inductive Reason where
  /-- the operating system refused -/
  | system (e : SystemError)
  /-- the command line to run has no word -/
  | emptyCommand
  /-- the command ran and did not succeed -/
  | commandFailed (ending : Ending)
  /-- a listing file is not UTF-8 -/
  | listingNotUtf8
  /-- what a command printed is not UTF-8 -/
  | outputNotUtf8
  /-- any other reason, in words -/
  | stated (words : Text)
  deriving DecidableEq, Repr

/-- The reason in words. -/
def Reason.message : Reason → Text
  | system e => e.message
  | emptyCommand => "the listing command is empty".toList
  | commandFailed e => "command ".toList ++ e.message
  | listingNotUtf8 => "stream did not contain valid UTF-8".toList
  | outputNotUtf8 => "output is not valid UTF-8".toList
  | stated words => words

/-- A way in which a run fails. -/
inductive Fault where
  /-- the command line of `program` was not understood -/
  | usage (program : Text)
  /-- no table could be read from `origin` -/
  | sourceUnavailable (origin : Text) (reason : Reason)
  /-- the line with number `lineNo`, counted from one, is no row -/
  | malformedRow (lineNo : Nat) (defect : RowDefect) (line : Text) (span : Span)
  /-- nothing could be written at `path` -/
  | destinationUnwritable (path : Bytes) (reason : Reason)
  deriving DecidableEq, Repr

namespace Fault

/-- The fault in words. -/
def message : Fault → Text
  | usage program => "usage: ".toList ++ program ++ " <h | c>".toList
  | sourceUnavailable origin reason =>
    "couldn't read the error table from `".toList ++ origin ++ "`: ".toList ++ reason.message
  | malformedRow lineNo _ _ _ =>
    "malformed row on line ".toList ++ decimal lineNo ++ " of the error table".toList
  | destinationUnwritable path reason =>
    "couldn't write ".toList ++ Utf8.decodeLossy path ++ ": ".toList ++ reason.message

/-- The exit status of a run that ends in the fault. -/
def exitStatus : Fault → Nat
  | usage .. => 1
  | sourceUnavailable .. => 2
  | malformedRow .. => 3
  | destinationUnwritable .. => 4

/-- The name under which a report lists the fault. -/
def code : Fault → Text
  | usage .. => "hosterrno::usage".toList
  | sourceUnavailable .. => "hosterrno::source_unavailable".toList
  | malformedRow .. => "hosterrno::malformed_row".toList
  | destinationUnwritable .. => "hosterrno::destination_unwritable".toList

/-- What a report advises, if there is anything to advise. -/
def help? : Fault → Option Text
  | usage .. => some "pass `h` to generate the header or `c` to generate the implementation".toList
  | sourceUnavailable .. =>
    some ("the `errno` utility ships with moreutils; ".toList ++
      "a captured listing can be passed with --listing".toList)
  | malformedRow .. => some "rows must have the form `<SYMBOL> <VALUE> [description...]`".toList
  | destinationUnwritable .. => none

/-- A malformed row, with the octets of the line from `first` up to `last` marked. -/
def ofRow (lineNo : Nat) (line : Text) (defect : RowDefect) (first last : Nat) : Fault :=
  malformedRow lineNo defect line ⟨first, last - first⟩

/-- No fault passes for success, and no status is above four. -/
theorem exitStatus_range (f : Fault) : 1 ≤ f.exitStatus ∧ f.exitStatus ≤ 4 := by
  cases f <;> simp [exitStatus]

end Fault

/-- The usage line for a program name. -/
def usageLine (program : Text) : Text := (Fault.usage program).message

end ErrnoBindings
