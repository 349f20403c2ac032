import ErrnoBindings.Utility.Shell.Builtin.Basic
import ErrnoBindings.Utility.Shell.Invocation

/-!
# Running scripts

This module says what each part of a script does. A command leaves a status behind; with the option `e` on, a
command that fails ends the shell, unless its success is asked for by what stands around it (`asked`). Between two
commands the shell looks for signals that have arrived.

A script need not end, so running has fuel, of which each step into a part of a script takes a little; a script that
uses it up is given up. The commands of a pipeline, which would be run at the same time, are run one after the
other, each reading what the one before has printed.
-/

namespace ErrnoBindings.Utility.Shell

namespace Evaluation

/-- The number of functions that may stand in each other. -/
def deepest : Nat := 1000

/-- Ends the shell if the last command failed, the option is on, and nothing around asked for its success. -/
def check (asked : Bool) : Act Unit := do
  let p ← Act.process
  if p.has 'e' && !asked && p.status != 0 then throw .finish

/-- A text without the ends of lines at its end, and without the least character. -/
def trimmed (t : Text) : Text :=
  ((t.filter fun c => c != Char.ofNat 0).reverse.dropWhile fun c => c == '\n').reverse

/-- Saves variables, and gives what puts them back. -/
def saving (names : List Text) : Act (Act Unit) := do
  let p ← Act.process
  let old := names.map fun n => (n, p.get? n)
  return old.forM fun v => Act.update fun p => p.put v.1 v.2

/-- Makes assignments, which may be for programs to see, and gives them as they would be written. -/
def assignAll (run : Expansion.Runner) (exported : Bool) (assignments : List (Text × Word)) : Act (List Text) :=
  assignments.mapM fun a => do
    let v ← Expansion.text run a.2
    Act.assign a.1 v
    if exported then
      Act.update fun p => p.put a.1 ((p.get? a.1).map fun v => { v with exported := true })
    return a.1 ++ '=' :: v

/-- Shows a command that is about to be run, if the option is on. -/
def trace (stream : Option Nat) (words : List Text) : Act Unit := do
  let p ← Act.process
  if p.has 'x' then
    let _ ← Act.writeTo stream (((p.value? "PS4".toList).getD []) ++ joinWords words ++ ['\n'])

/-- Runs the rounds of a loop, inside of which there is one loop more. -/
def inLoop (body : Act Unit) : Act Unit := do
  Act.update fun p => { p with loops := p.loops + 1 }
  let unwound ← Act.outcome body
  Act.update fun p => { p with loops := p.loops - 1 }
  match unwound with
  | some u => throw u
  | none => pure ()

mutual

/-- Runs a script. -/
def run : Nat → Bool → Script → Act Unit
  | 0, _, _ => throw .exhausted
  | fuel + 1, asked, s => do
    if (← Act.process).has 'n' then return
    match s with
    | .nothing => pure ()
    | .simple c => do
      command fuel asked c
      arrived fuel
      check asked
    | .pipe a b => do
      pipeline fuel asked (.pipe a b)
      arrived fuel
      check asked
    | .negated s => do
      run fuel true s
      Act.setStatus (if (← Act.status) = 0 then 1 else 0)
    | .andThen a b => do
      run fuel true a
      if (← Act.status) = 0 then run fuel asked b
    | .orElse a b => do
      run fuel true a
      if (← Act.status) ≠ 0 then run fuel asked b
    | .inOrder a b => do
      run fuel asked a
      run fuel asked b
    | .background s => do
      let null ← Act.newStream ⟨.null, true, false, false⟩
      let status ← inPart fuel (fun p => p.connect 0 (some null)) (run fuel false s)
      let number := (← get).next
      modify fun m => { m with next := number + 1 }
      Act.update fun p => { p with jobs := (number, status) :: p.jobs, status := 0 }
      arrived fuel
    | .subshell s => do
      Act.setStatus (← inPart fuel id (run fuel asked s))
      arrived fuel
      check asked
    | .redirected s rs => do
      let saved := (← Act.process).descriptors
      let restore := Act.update fun p => { p with descriptors := saved }
      if ← Redirection.apply (substitute fuel) rs then
        let unwound ← Act.outcome (run fuel asked s)
        restore
        match unwound with
        | some u => throw u
        | none => pure ()
      else do
        restore
        Act.setStatus 2
    | .choose condition yes no => do
      run fuel true condition
      if (← Act.status) = 0 then run fuel asked yes
      else
        match no with
        | .nothing => Act.setStatus 0
        | _ => run fuel asked no
    | .loop succeeds condition body => inLoop (rounds fuel asked succeeds condition body 0)
    | .forEach name words body => do
      let values ← match words with
        | some ws => Expansion.fields (substitute fuel) ws
        | none => pure (← Act.process).arguments
      if values = [] then Act.setStatus 0 else inLoop (each fuel asked name values body)
    | .select subject arms => do
      choose fuel asked (← Expansion.text (substitute fuel) subject) arms
    | .define name body => do
      Act.update fun p => { p with functions := (name, body) :: p.functions.filter fun f => f.1 != name }
      Act.setStatus 0

/-- Runs the units of a script one after the other. -/
def units : Nat → Bool → List Token → Act Unit
  | 0, _, _ => throw .exhausted
  | fuel + 1, asked, ts => do
    if ts.isEmpty then return
    match Script.unit ts with
    | none => throw .fault
    | some (s, rest) => do
      run fuel asked s
      units fuel asked rest

/-- Runs a text as a script. One without commands succeeds. -/
def text : Nat → Bool → Text → Act Unit
  | 0, _, _ => throw .exhausted
  | fuel + 1, asked, t => do
    let ts := Script.tokens t
    if ts.all fun token => token == .newline then Act.setStatus 0 else units fuel asked ts

/-- Runs an action as a shell to its end, with what is to be run at its end. -/
def toEnd : Nat → Act Unit → Act Unit
  | 0, _ => throw .exhausted
  | fuel + 1, body => do
    match ← Act.outcome body with
    | some (.killed number signal) => throw (.killed number signal)
    | some .exhausted => throw .exhausted
    | some .replaced => pure ()
    | some .fault => do
      Act.setStatus 2
      farewell fuel
    | _ => farewell fuel

/-- Runs what is to be run at the end of a shell. The status stays unless it is given anew. -/
def farewell : Nat → Act Unit
  | 0 => throw .exhausted
  | fuel + 1 => do
    let p ← Act.process
    match p.trap? 0 with
    | none => pure ()
    | some t => do
      Act.update fun p => { p.setTrap 0 none with endStatus := some p.status, loops := 0 }
      match ← Act.outcome (text fuel false t) with
      | none => Act.setStatus p.status
      | some .finish => pure ()
      | some .fault => Act.setStatus 2
      | some (.killed number signal) => throw (.killed number signal)
      | some .exhausted => throw .exhausted
      | some _ => Act.setStatus p.status

/-- Runs an action in a part of this shell that goes on by itself, and gives the status. -/
def inPart : Nat → (Process → Process) → Act Unit → Act Nat
  | 0, _, _ => throw .exhausted
  | fuel + 1, change, body => Act.apart (fun p => change p.part) (toEnd fuel body)

/-- Runs a script, and gives what it prints. -/
def substitute : Nat → Text → Act Text
  | 0, _ => throw .exhausted
  | fuel + 1, script => do
    let out ← Act.newStream ⟨.pipe [], true, true, false⟩
    let status ← inPart fuel (fun p => p.connect 1 (some out)) (text fuel false script)
    Act.update fun p => { p with filledStatus := status }
    Builtin.succumb
    return trimmed ((← get).contents out)

/-- Does what is to be done about signals that have arrived. -/
def arrived : Nat → Act Unit
  | 0 => throw .exhausted
  | fuel + 1 => do
    Builtin.succumb
    let m ← get
    let p := m.process
    match m.pending.find? fun s => s.1 == p.number && !p.inner with
    | none => pure ()
    | some s => do
      set { m with pending := m.pending.erase s }
      match p.trap? s.2 with
      | none => pure ()
      | some t => do
        Act.update fun p => { p with endStatus := some p.status }
        text fuel false t
        Act.update fun q => { q with status := p.status, endStatus := p.endStatus }
      arrived fuel

/-- Runs the commands of a pipeline, each of them in a part of the shell. -/
def pipeline : Nat → Bool → Script → Act Unit
  | 0, _, _ => throw .exhausted
  | fuel + 1, asked, s => do
    match s with
    | .pipe a b => do
      let n ← Act.newStream ⟨.pipe [], true, true, false⟩
      let _ ← inPart fuel (fun p => p.connect 1 (some n)) (run fuel asked a)
      let saved := (← Act.process).descriptors
      Act.update fun p => p.connect 0 (some n)
      pipeline fuel asked b
      Act.update fun p => { p with descriptors := saved }
    | s => Act.setStatus (← inPart fuel id (run fuel asked s))

/-- Runs the rounds of a loop with a condition, given the status of the last round. -/
def rounds : Nat → Bool → Bool → Script → Script → Nat → Act Unit
  | 0, _, _, _, _, _ => throw .exhausted
  | fuel + 1, asked, succeeds, condition, body, last => do
    match ← Act.outcome (run fuel true condition) with
    | some (.leaveLoops (n + 2)) => throw (.leaveLoops (n + 1))
    | some (.leaveLoops _) => Act.setStatus last
    | some (.nextRound (n + 2)) => throw (.nextRound (n + 1))
    | some (.nextRound _) => rounds fuel asked succeeds condition body last
    | some u => throw u
    | none =>
      if ((← Act.status) == 0) != succeeds then Act.setStatus last
      else
        match ← Act.outcome (run fuel asked body) with
        | none => rounds fuel asked succeeds condition body (← Act.status)
        | some (.leaveLoops (n + 2)) => throw (.leaveLoops (n + 1))
        | some (.leaveLoops _) => pure ()
        | some (.nextRound (n + 2)) => throw (.nextRound (n + 1))
        | some (.nextRound _) => rounds fuel asked succeeds condition body (← Act.status)
        | some u => throw u

/-- Runs the rounds of a loop over values. -/
def each : Nat → Bool → Text → List Text → Script → Act Unit
  | 0, _, _, _, _ => throw .exhausted
  | fuel + 1, asked, name, values, body => do
    match values with
    | [] => pure ()
    | v :: rest => do
      Act.assign name v
      match ← Act.outcome (run fuel asked body) with
      | none => each fuel asked name rest body
      | some (.leaveLoops (n + 2)) => throw (.leaveLoops (n + 1))
      | some (.leaveLoops _) => pure ()
      | some (.nextRound (n + 2)) => throw (.nextRound (n + 1))
      | some (.nextRound _) => each fuel asked name rest body
      | some u => throw u

/-- Runs the first arm that a text matches. -/
def choose : Nat → Bool → Text → Arms → Act Unit
  | 0, _, _, _ => throw .exhausted
  | fuel + 1, asked, t, arms => do
    match arms with
    | .none => Act.setStatus 0
    | .arm ws body rest => do
      if ← anyMatch fuel t ws then
        match body with
        | .nothing => Act.setStatus 0
        | _ => run fuel asked body
      else choose fuel asked t rest

/-- Whether a text matches one of some patterns, which are filled in one after the other. -/
def anyMatch : Nat → Text → List Word → Act Bool
  | 0, _, _ => throw .exhausted
  | fuel + 1, t, ws => do
    match ws with
    | [] => return false
    | w :: rest => do
      if Pattern.accepts (← Expansion.pattern (substitute fuel) w) t then return true else anyMatch fuel t rest

/-- Runs a simple command. -/
def command : Nat → Bool → Simple → Act Unit
  | 0, _, _ => throw .exhausted
  | fuel + 1, asked, c => do
    Act.update fun p => { p with filledStatus := 0 }
    let words ← Expansion.commandFields (substitute fuel) c.words
    let saved := (← Act.process).descriptors
    let errors := (← Act.process).stream? 2
    let restore := Act.update fun p => { p with descriptors := saved }
    let redirected ← Redirection.apply (substitute fuel) c.redirections
    match words with
    | [] => do
      if redirected then
        trace errors (← assignAll (substitute fuel) false c.assignments)
        restore
        Act.setStatus (← Act.process).filledStatus
      else do
        restore
        Act.setStatus 2
    | name :: args => do
      let m ← get
      let callee := Callee.of m.tree m.process true name
      if !redirected then
        restore
        match callee with
        | .special => throw .fault
        | _ => Act.setStatus 2
      else
        match callee with
        | .special => do
          let made ← assignAll (substitute fuel) (name == "exec".toList) c.assignments
          trace errors (made ++ words)
          let unwound ← Act.outcome (do Act.setStatus (← special fuel asked name args))
          if name ≠ "exec".toList ∨ args ≠ [] then restore
          match unwound with
          | some u => throw u
          | none => pure ()
        | _ => do
          let putBack ← saving (c.assignments.map Prod.fst)
          let made ← assignAll (substitute fuel) true c.assignments
          trace errors (made ++ words)
          let unwound ← Act.outcome (do Act.setStatus (← call fuel asked callee name args))
          putBack
          restore
          match unwound with
          | some u => throw u
          | none => pure ()

/-- Runs a command that is not special. -/
def call : Nat → Bool → Callee → Text → List Text → Act Nat
  | 0, _, _, _, _ => throw .exhausted
  | fuel + 1, asked, callee, name, args => do
    match callee with
    | .special => special fuel asked name args
    | .function body => function fuel asked body args
    | .missing status => return status
    | .program utility _ => do
      let number := (← get).next
      modify fun m => { m with next := number + 1 }
      launch fuel number utility name args
    | .builtin => do
      let act := if name = "command".toList then plainCommand fuel asked args else Builtin.run name args
      try act
      catch u => if u = .fault then return 2 else throw u

/-- Runs a special command of the shell. -/
def special : Nat → Bool → Text → List Text → Act Nat
  | 0, _, _, _ => throw .exhausted
  | fuel + 1, asked, name, args => do
    match String.ofList name with
    | "eval" => do
      text fuel asked (joinWords args)
      Act.status
    | "." =>
      match operandsBehindDashes args with
      | [] => return 0
      | file :: _ => do
        let script ← Invocation.sourced file
        match ← Act.outcome (text fuel false script) with
        | none => Act.status
        | some .leaveFunction => Act.status
        | some u => throw u
    | "exec" =>
      match operandsBehindDashes args with
      | [] => return 0
      | program :: rest => do
        let m ← get
        match Callee.programOf m.tree m.process program with
        | .program utility _ => do
          Act.setStatus (← launch fuel m.process.number utility program rest)
          throw .replaced
        | .missing status => do
          Act.setStatus status
          throw .finish
        | _ => throw .fault
    | _ => Builtin.run name args

/-- Runs a command that is no function, or says what it stands for. A mistake in it does not end the script. -/
def plainCommand : Nat → Bool → List Text → Act Nat
  | 0, _, _ => throw .exhausted
  | fuel + 1, asked, args => do
    match args with
    | ['-', 'v'] :: names => Builtin.describe false names
    | ['-', 'V'] :: names => Builtin.describe true names
    | ['-', 'p'] :: rest => plainCommand fuel asked rest
    | ['-', '-'] :: rest => plainCommand fuel asked rest
    | [] => return 0
    | name :: rest => do
      let m ← get
      call fuel asked (Callee.of m.tree m.process false name) name rest

/-- Runs a function. -/
def function : Nat → Bool → Script → List Text → Act Nat
  | 0, _, _, _ => throw .exhausted
  | fuel + 1, asked, body, args => do
    let p ← Act.process
    if deepest ≤ p.calls then throw .fault
    Act.update fun p =>
      { p with arguments := args, locals := [], calls := p.calls + 1, loops := 0, optionPlace := none }
    let unwound ← Act.outcome (run fuel asked body)
    (← Act.process).locals.forM fun v => Act.update fun p => p.put v.1 v.2
    Act.update fun q =>
      { q with
        arguments := p.arguments, locals := p.locals, calls := p.calls, loops := p.loops
        optionPlace := p.optionPlace }
    match unwound with
    | none => Act.status
    | some .leaveFunction => Act.status
    | some u => throw u

/-- Runs a program under a number. -/
def launch : Nat → Nat → Text → Text → List Text → Act Nat
  | 0, _, _, _, _ => throw .exhausted
  | fuel + 1, number, utility, called, args => do
    if utility = "sh".toList then shell fuel number called args else Invocation.program utility called args

/-- Runs another shell. -/
def shell : Nat → Nat → Text → List Text → Act Nat
  | 0, _, _, _ => throw .exhausted
  | fuel + 1, number, called, args => do
    let fresh (p : Process) : Process :=
      { Process.start called number with
        store := standardVariables ++ p.exports.map fun v => (v.1, ⟨some v.2, true, false⟩)
        descriptors := p.descriptors
        directory := p.directory
        traps := p.traps.filter fun t => t.2 == []
        starters := (p.number, p.ownTraps) :: p.starters
        mask := p.mask }
    Act.apart fresh (fromArguments fuel args)

/-- Runs a shell from its arguments to its end. -/
def fromArguments : Nat → List Text → Act Unit
  | 0, _ => throw .exhausted
  | fuel + 1, args => toEnd fuel (do text fuel false (← Invocation.scriptOf args))

end

end Evaluation

end ErrnoBindings.Utility.Shell
