import ErrnoBindings.Text.Numeral

/-!
# What the system refuses

The tool asks the operating system for three things: to read a file, to write one, and to run a program. Each can
be refused, and the refusals are few enough to be listed. A refusal by the kernel shows its error number behind
its text; a name with a NUL in it is refused before the kernel sees it and has no number.

A program that did run can still end badly: with a status other than zero, or by a signal.
-/

namespace ErrnoBindings

/-- A refusal of the operating system. -/
inductive SystemError where
  /-- nothing stands at the path -/
  | notFound
  /-- what stands at the path may not be run -/
  | permissionDenied
  /-- something stands where a directory was to be made -/
  | alreadyExists
  /-- a step of the path leads through something that is not a directory -/
  | notADirectory
  /-- a directory stands where a file is wanted -/
  | isADirectory
  /-- a name, or the path as a whole, is longer than the system takes -/
  | nameTooLong
  /-- the path has a NUL in it -/
  | nulInPath
  /-- the program's name or an argument has a NUL in it -/
  | nulInCommand
  deriving DecidableEq, Repr

namespace SystemError

/-- The kernel's number for a refusal; none for the refusals that never reach the kernel. -/
def number? : SystemError → Option Nat
  | notFound => some 2
  | permissionDenied => some 13
  | alreadyExists => some 17
  | notADirectory => some 20
  | isADirectory => some 21
  | nameTooLong => some 36
  | nulInPath => none
  | nulInCommand => none

/-- The refusal with a number of the kernel's, if it is one of these. -/
def ofNumber? (n : Nat) : Option SystemError :=
  [notFound, permissionDenied, alreadyExists, notADirectory, isADirectory, nameTooLong].find? fun e =>
    e.number? == some n

/-- The refusal in words. -/
def text : SystemError → Text
  | notFound => "No such file or directory".toList
  | permissionDenied => "Permission denied".toList
  | alreadyExists => "File exists".toList
  | notADirectory => "Not a directory".toList
  | isADirectory => "Is a directory".toList
  | nameTooLong => "File name too long".toList
  | nulInPath => "file name contained an unexpected NUL byte".toList
  | nulInCommand => "nul byte found in provided data".toList

/-- The words, and the number in brackets where there is one. -/
def message (e : SystemError) : Text :=
  match e.number? with
  | some n => e.text ++ " (os error ".toList ++ decimal n ++ ")".toList
  | none => e.text

end SystemError

/-! ## Signals -/

/-- The names of the signals, by number from one. -/
def signalNames : List String :=
  ["SIGHUP", "SIGINT", "SIGQUIT", "SIGILL", "SIGTRAP", "SIGABRT", "SIGBUS", "SIGFPE", "SIGKILL", "SIGUSR1",
    "SIGSEGV", "SIGUSR2", "SIGPIPE", "SIGALRM", "SIGTERM", "SIGSTKFLT", "SIGCHLD", "SIGCONT", "SIGSTOP",
    "SIGTSTP", "SIGTTIN", "SIGTTOU", "SIGURG", "SIGXCPU", "SIGXFSZ", "SIGVTALRM", "SIGPROF", "SIGWINCH",
    "SIGIO", "SIGPWR", "SIGSYS"]

/-- How a program ended. -/
inductive Ending where
  /-- by itself, with an exit status -/
  | exited (status : Nat)
  /-- by a signal -/
  | killed (signal : Nat)
  deriving DecidableEq, Repr

namespace Ending

/-- A program succeeded when it ended by itself with status zero. -/
def succeeded : Ending → Bool
  | exited 0 => true
  | _ => false

/-- The ending in words; a signal that has a name shows it in brackets. -/
def message : Ending → Text
  | exited n => "exit status: ".toList ++ decimal n
  | killed n => "signal: ".toList ++ decimal n ++
      match n with
      | 0 => []
      | k + 1 => match signalNames[k]? with
        | some name => " (".toList ++ name.toList ++ ")".toList
        | none => []

end Ending

end ErrnoBindings
