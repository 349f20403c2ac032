import ErrnoBindings.Utility.Shell.Builtin.Options
import ErrnoBindings.Utility.Shell.Builtin.Signals
import ErrnoBindings.Utility.Shell.Lookup

/-!
# Commands of the shell

These are the commands that the shell runs itself, apart from those that run other commands. `Builtin.run` looks a
command up by its name. A fault in one of them ends the script if the command is special, and is a status of two
otherwise; which of the two happens is decided by whoever runs the command.
-/

namespace ErrnoBindings.Utility.Shell

namespace Builtin

/-! ## Leaving -/

/-- Sets the status by an argument, if there is one. -/
def takeStatus (args : List Text) (standard : Act Nat) : Act Unit := do
  match args with
  | [] => Act.setStatus (← standard)
  | t :: _ => Act.setStatus (← number t)

/-- Ends the shell. -/
def finish (args : List Text) : Act Nat := do
  takeStatus args do
    let p ← Act.process
    return p.endStatus.getD p.status
  throw .finish

/-- Leaves a function. -/
def leave (args : List Text) : Act Nat := do
  takeStatus args Act.status
  throw .leaveFunction

/-- Leaves some of the loops around, or begins the next round of one. There need not be so many. -/
def leaveLoops (unwind : Nat → Unwind) (args : List Text) : Act Nat := do
  let n ← match args with
    | [] => pure 1
    | t :: _ => number t
  if n = 0 then throw .fault
  let loops := (← Act.process).loops
  if loops = 0 then return 0
  Act.setStatus 0
  throw (unwind (min n loops))

/-! ## Directories and jobs -/

/-- Goes to a directory. -/
def changeDirectory (args : List Text) : Act Nat := do
  let m ← get
  let p := m.process
  let target : Option Location := match operandsBehindDashes args with
    | [] => none
    | ['-'] :: _ => p.previous
    | [] :: _ => some p.directory
    | path :: _ =>
      match Files.get? m.tree p.directory path, Files.locate m.tree p.directory path with
      | some .directory, .ok l => some l
      | _, _ => none
  match target with
  | none => throw .fault
  | some l => do
    Act.update fun p => { p with directory := l, previous := some p.directory }
    return 0

/-- Waits for commands, which have all ended by then, and gives the status of the last. -/
def wait (args : List Text) : Act Nat :=
  args.foldlM (fun _ t => do
    let n ← number t
    return (((← Act.process).jobs.find? fun j => j.1 == n).map Prod.snd).getD Callee.notFound) 0

/-- Shows or sets the rights that new files do not get, as octal digits. -/
def mask (args : List Text) : Act Nat := do
  match args with
  | [] => do
    let ds := Nat.toDigits 8 (← Act.process).mask
    Act.print (List.replicate (4 - ds.length) '0' ++ ds ++ ['\n']) 0
  | t :: _ =>
    if t ≠ [] ∧ t.all fun c => decide ('0' ≤ c ∧ c ≤ '7') then
      Act.update fun p => { p with mask := Nat.ofDigitChars 8 t 0 % 512 }
    return 0

/-! ## Conditions and descriptions -/

/-- What stands at a path, as conditions see it. -/
def sight (m : Machine) (path : Text) : Option Condition.Sighting :=
  if path = Files.nullDevice then some .device
  else match Files.locate m.tree m.process.directory path with
    | .ok l => (m.tree.get? l).map (.node l)
    | .error _ => none

/-- Finds out whether a condition holds. -/
def test (bracket : Bool) (args : List Text) : Act Nat := do return Condition.status (sight (← get)) bracket args

/-- Says what names stand for. -/
def describe (inWords : Bool) (names : List Text) : Act Nat := do
  let m ← get
  names.foldlM (fun status name => do
    match Callee.describe m.tree m.process inWords name with
    | some t => Act.print (t ++ ['\n']) status
    | none => do
      let told ← if inWords then Act.print (name ++ ": not found\n".toList) 0 else pure 0
      return if told = 0 then Callee.notFound else told) 0

/-! ## By name -/

/-- Runs a command by its name. -/
def run (name : Text) (args : List Text) : Act Nat := do
  match String.ofList name with
  | ":" => return 0
  | "true" => return 0
  | "false" => return 1
  | "echo" => Act.print (shellEcho args) 0
  | "printf" => do
    let (out, status) := shellPrintf args
    Act.print out status
  | "test" => test false args
  | "[" => test true args
  | "exit" => finish args
  | "return" => leave args
  | "break" => leaveLoops .leaveLoops args
  | "continue" => leaveLoops .nextRound args
  | "export" => exportVariables args
  | "readonly" => fixVariables args
  | "local" => keepLocal args
  | "unset" => unsetNames args
  | "shift" => shift args
  | "set" => setAll args
  | "read" => readLine args
  | "getopts" => getopts args
  | "kill" => kill args
  | "trap" => trap args
  | "cd" => changeDirectory args
  | "chdir" => changeDirectory args
  | "pwd" => Act.print "/\n".toList 0
  | "wait" => wait args
  | "umask" => mask args
  | "type" => describe true args
  | _ => return 0

end Builtin

end ErrnoBindings.Utility.Shell
