import ErrnoBindings.Utility.Shell.Builtin.Variables
import ErrnoBindings.Utility.Shell.Signal

/-!
# Sending and trapping signals

A signal that is sent to the shell that is running, or to one that started it, ends that shell, unless it is one
that does no harm, or the shell has said what is to be done about it. What is to be done is not done here: the
signal is put down as having arrived (`Machine.pending`), and the shell looks at that between two commands. So does
a shell that is to end by a signal from a part of it, since that part goes on to its own end.
-/

namespace ErrnoBindings.Utility.Shell

namespace Builtin

/-- What becomes of a signal. -/
inductive Fate where
  /-- nothing -/
  | ignored
  /-- something that the shell has said is to be done -/
  | trapped (action : Text)
  /-- the end of the shell -/
  | deadly
  deriving DecidableEq, Repr

/-- What becomes of a signal, given what is to be done about signals. -/
def fate (traps : List (Nat × Text)) (signal : Nat) : Fate :=
  match if Signal.unstoppable.elem signal then none else traps.find? fun t => t.1 == signal with
  | some (_, []) => .ignored
  | some (_, action) => .trapped action
  | none => if Signal.harmless.elem signal then .ignored else .deadly

/-- Sends a signal to a program, and says whether there is one of that number. The shell that sends it to itself
ends at once; any other shell gets to know of it later. -/
def send (signal number : Nat) : Act Bool := do
  let p ← Act.process
  let arrive : Act Bool := do
    modify fun m => { m with pending := m.pending ++ [(number, signal)] }
    return true
  match ((p.number, p.ownTraps) :: p.starters).find? fun s => s.1 == number with
  | none => return p.jobs.any fun j => j.1 == number && signal == 0
  | some (_, traps) =>
    match fate traps signal with
    | .ignored => return true
    | .trapped _ => arrive
    | .deadly => if number = p.number ∧ p.inner = false then throw (.killed number signal) else arrive

/-- Ends the shell if a signal has arrived that is deadly for it. -/
def succumb : Act Unit := do
  let m ← get
  let p := m.process
  if !p.inner then
    match m.pending.find? fun s => s.1 == p.number && fate p.traps s.2 == .deadly with
    | some (number, signal) => throw (.killed number signal)
    | none => pure ()

/-- What the arguments of `kill` ask for. -/
inductive Sending where
  /-- a signal to be sent to some programs -/
  | send (signal : Nat) (targets : List Text)
  /-- the names of signals -/
  | list (args : List Text)

/-- A signal that is no end of a script. -/
def signal? (t : Text) : Option Nat := if t.map Char.toUpper = "EXIT".toList then none else Signal.ofText? t

/-- Reads the arguments of `kill`. The first may be a dash and a signal, or an option. -/
def sending? : List Text → Option Sending
  | [] => none
  | ('-' :: name) :: rest =>
    match signal? name with
    | some n => some (.send n rest)
    | none =>
      match name, rest with
      | ['l'], _ => some (.list rest)
      | ['-'], _ => some (.send Signal.standard rest)
      | [], _ => some (.send Signal.standard (['-'] :: rest))
      | ['s'], t :: rest => (signal? t).map fun n => .send n (operandsBehindDashes rest)
      | 's' :: t, rest => (signal? t).map fun n => .send n (operandsBehindDashes rest)
      | _, _ => none
  | targets => some (.send Signal.standard targets)

/-- Names a signal, which may be given as the status of a program that it ended. -/
def signalName (t : Text) : Act Text := do
  let n ← number t
  let n := if 128 < n then n - 128 else n
  if n = 0 then throw .fault
  match Signal.names[n]? with
  | some name => return name
  | none => throw .fault

/-- Sends signals, or names them. -/
def kill (args : List Text) : Act Nat := do
  match sending? args with
  | none => throw .fault
  | some (.list []) => Act.print (unlines (['0'] :: Signal.names.tail)) 0
  | some (.list (t :: _)) => Act.print (unlines [← signalName t]) 0
  | some (.send _ []) => throw .fault
  | some (.send signal targets) =>
    targets.foldlM (fun status t => do
      let found ← match t with
        | '-' :: _ => pure false
        | _ => send signal (← number t)
      return if found then status else 1) 0

/-- Sets traps up to the first signal that is none. -/
def setTraps (action : Option Text) : List Text → Act Nat
  | [] => return 0
  | t :: rest =>
    match Signal.ofText? t with
    | none => return 1
    | some n => do
      Act.update fun p => p.setTrap n action
      setTraps action rest

/-- Says what is to be done when signals arrive, or lists what is. -/
def trap (args : List Text) : Act Nat := do
  match operandsBehindDashes args with
  | [] => do
    let p ← Act.process
    let lines := (List.range Signal.names.length).filterMap fun n =>
      (p.trap? n).map fun t => "trap -- ".toList ++ inQuotes t ++ ' ' :: Signal.names.getD n []
    Act.print (unlines lines) 0
  | first :: rest =>
    let (action, signals) :=
      if rest = [] ∨ (first.all Char.isDigit ∧ (Signal.ofText? first).isSome) then (none, first :: rest)
      else if first = ['-'] then (none, rest)
      else (some first, rest)
    setTraps action signals

end Builtin

end ErrnoBindings.Utility.Shell
