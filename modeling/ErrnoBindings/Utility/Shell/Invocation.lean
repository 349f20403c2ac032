import ErrnoBindings.Utility.Shell.Builtin.Basic
import ErrnoBindings.Utility.Shell.Redirect

/-!
# Programs and scripts from outside

A script can run programs, and it can read other scripts. A program is run here as far as it is not a shell
(`Invocation.program`); of a shell, only the arguments are read, and what they ask for is the text of a script
(`Invocation.scriptOf`).
-/

namespace ErrnoBindings.Utility.Shell

namespace Invocation

/-- Runs a program other than the shell. It does not read from the file that it writes to, unless that is empty. -/
def program (name called : Text) (args : List Text) : Act Nat := do
  let m ← get
  let p := m.process
  let output := (p.stream? 1).bind m.location?
  let contents (n : Nat) : Option Text :=
    (p.stream? n).bind fun s => (m.contents? s).filter fun t => t.isEmpty || output.isNone || m.location? s != output
  let read (path : Text) : Option Text :=
    match Redirection.named? path with
    | some n => contents n
    | none => (Files.read? m.tree p.directory path).filter fun t =>
        t.isEmpty || output.isNone || (Files.locate m.tree p.directory path).toOption != output
  match run? read name called (contents 0) args with
  | none => return Callee.notFound
  | some (f, consumed) => do
    match p.stream? 0, contents 0, consumed with
    | some n, some t, true => set (m.consume n t.length)
    | _, _, _ => pure ()
    let status := match f.ending with
      | .exited n => n
      | .killed n => Signal.statusOf n
    if ← Act.write 1 f.output then return status else return 1

/-- The options in front of the arguments of the shell itself: whether one of them asks for a script among the
arguments, and the arguments behind them. -/
def shellOptions (args : List Text) : Act (Bool × List Text) := do
  let letters (c : Char) : Option (Act Unit) :=
    if c = 'c' then some (Act.update fun p => p.turn true 'c')
    else if c = 'l' then some (pure ())
    else none
  let (rest, _) ← Builtin.readOptions letters args.length args
  let given := (← Act.process).has 'c'
  Act.update fun p => p.turn false 'c'
  return (given, rest)

/-- The script that the arguments of the shell name, with the name and the arguments it is to have. Without a script
among the arguments the shell reads what it can. -/
def scriptOf (args : List Text) : Act Text := do
  let (given, rest) ← shellOptions args
  let m ← get
  let own : Act Text := do
    Act.update fun p => p.turn true 's'
    let m ← get
    match m.process.stream? 0 with
    | none => return []
    | some n => do
      set (m.consume n (m.contents n).length)
      return m.contents n
  let name (rest : List Text) : Act Unit :=
    match rest with
    | [] => pure ()
    | zero :: args => Act.update fun p => { p with name := zero, arguments := args }
  match given, rest with
  | true, [] => throw .fault
  | true, script :: rest => do
    name rest
    return script
  | false, [] => own
  | false, path :: rest =>
    if m.process.has 's' then do
      Act.update fun p => { p with arguments := path :: rest }
      own
    else do
      name (path :: rest)
      match Files.read? m.tree m.process.directory path with
      | some script => return script
      | none =>
        if (Files.get? m.tree m.process.directory path).isSome then return [] else throw .fault

/-- The file that `.` reads. A name without a slash is looked for in the directories of programs. -/
def sourced (name : Text) : Act Text := do
  let m ← get
  let p := m.process
  let candidates :=
    if name.elem '/' then [name]
    else (Callee.directories ((p.value? "PATH".toList).getD [])).map fun d => if d = [] then name else d ++ '/' :: name
  match candidates.findSome? fun path => Files.read? m.tree p.directory path with
  | some t => return t
  | none => throw .fault

end Invocation

end ErrnoBindings.Utility.Shell
