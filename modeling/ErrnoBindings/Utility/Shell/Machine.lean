import ErrnoBindings.Utility.Files
import ErrnoBindings.Utility.Shell.Script

/-!
# The state of a shell

A shell has what can be asked of it in a script: its name and arguments, variables, functions, options, traps, the
status of the last command (`Process`). It is connected to the rest of the world by descriptors, each of which leads
to a stream. A stream is shared by all descriptors that lead to it, also in the shells that a shell starts, so
streams are kept outside of the shells, next to the tree of files (`Machine`).

What a script does is an action (`Act`): it changes the machine, and it may break off what surrounds it, up to a
loop, a function or the whole shell (`Unwind`).
-/

namespace ErrnoBindings.Utility.Shell

/-! ## Streams -/

/-- What a stream is made of. -/
inductive Medium where
  /-- what has been written and not been read yet -/
  | pipe (contents : Text)
  /-- a file, and the place in it that is read or written next -/
  | file (l : Location) (offset : Nat)
  /-- nothing: it is empty and takes everything -/
  | null
  deriving DecidableEq, Repr

/-- A stream. -/
structure Stream where
  /-- what it is made of -/
  medium : Medium
  /-- whether it can be read -/
  readable : Bool
  /-- whether it can be written -/
  writable : Bool
  /-- whether writing goes to the end of a file, wherever that is by then -/
  atEnd : Bool
  deriving DecidableEq, Repr

/-! ## Shells -/

/-- A variable. -/
structure Variable where
  /-- what it holds, if it is set -/
  value : Option Text
  /-- whether programs see it -/
  exported : Bool
  /-- whether it stays as it is -/
  fixed : Bool
  deriving DecidableEq, Repr

/-- The variables that a shell has by itself. -/
def standardVariables : List (Text × Variable) :=
  [("IFS", " \t\n"), ("OPTIND", "1"), ("PS1", "# "), ("PS2", "> "), ("PS4", "+ ")].map fun v =>
    (v.1.toList, ⟨some v.2.toList, false, false⟩)

/-- A shell. -/
structure Process where
  /-- its name -/
  name : Text
  /-- its arguments -/
  arguments : List Text
  /-- the variables by name -/
  store : List (Text × Variable)
  /-- the functions by name -/
  functions : List (Text × Script)
  /-- the streams that descriptors lead to -/
  descriptors : List (Nat × Nat)
  /-- the directory in which it is -/
  directory : Location
  /-- the directory in which it was -/
  previous : Option Location
  /-- the options that are on, by letter -/
  options : List Char
  /-- what is run at its end, as signal zero, and when a signal arrives -/
  traps : List (Nat × Text)
  /-- the traps of the shell whose number it has -/
  mainTraps : List (Nat × Text)
  /-- whether it is a part of another shell -/
  inner : Bool
  /-- its number -/
  number : Nat
  /-- the numbers of the shells that started it, and their traps -/
  starters : List (Nat × List (Nat × Text))
  /-- the rights that new files do not get -/
  mask : Nat
  /-- the status of the last command -/
  status : Nat
  /-- the status of the last command that was filled in, if one was in the command that is run -/
  filledStatus : Nat
  /-- the status that an end without a number has while a trap is run -/
  endStatus : Option Nat
  /-- the commands that were not waited for, with their status, the last one in front -/
  jobs : List (Nat × Nat)
  /-- the number of loops around -/
  loops : Nat
  /-- the number of functions around -/
  calls : Nat
  /-- the variables to be put back at the end of the function -/
  locals : List (Text × Option Variable)
  /-- the place among the options that `getopts` has come to, inside of an argument -/
  optionPlace : Option Nat

namespace Process

/-- A shell of this name and number, in the top directory, with nothing set and its descriptors not redirected. -/
def start (name : Text) (number : Nat) : Process :=
  { name, arguments := [], store := [], functions := [], descriptors := [(0, 0), (1, 1), (2, 2)],
    directory := [], previous := none, options := [], traps := [], mainTraps := [], inner := false, number,
    starters := [], mask := 18, status := 0, filledStatus := 0, endStatus := none, jobs := [], loops := 0, calls := 0,
    locals := [], optionPlace := none }

/-- A variable. -/
def get? (p : Process) (name : Text) : Option Variable :=
  (p.store.find? fun v => v.1 == name).map Prod.snd

/-- What a variable holds. -/
def value? (p : Process) (name : Text) : Option Text := (p.get? name).bind Variable.value

/-- Sets a variable, or takes it away. -/
def put (p : Process) (name : Text) (v : Option Variable) : Process :=
  let others := p.store.filter fun v => v.1 != name
  { p with store := match v with
      | some v => (name, v) :: others
      | none => others }

/-- Whether an option is on. -/
def has (p : Process) (option : Char) : Bool := p.options.elem option

/-- Turns an option on or off. -/
def turn (p : Process) (on : Bool) (option : Char) : Process :=
  let others := p.options.filter fun c => c != option
  { p with options := if on then option :: others else others }

/-- The stream that a descriptor leads to. -/
def stream? (p : Process) (descriptor : Nat) : Option Nat :=
  (p.descriptors.find? fun d => d.1 == descriptor).map Prod.snd

/-- Makes a descriptor lead to a stream, or to none. -/
def connect (p : Process) (descriptor : Nat) (stream : Option Nat) : Process :=
  let others := p.descriptors.filter fun d => d.1 != descriptor
  { p with descriptors := match stream with
      | some n => (descriptor, n) :: others
      | none => others }

/-- What is run when a signal arrives; nothing if it is ignored. -/
def trap? (p : Process) (signal : Nat) : Option Text :=
  (p.traps.find? fun t => t.1 == signal).map Prod.snd

/-- Sets a trap, or takes it away. -/
def setTrap (p : Process) (signal : Nat) (action : Option Text) : Process :=
  let others := p.traps.filter fun t => t.1 != signal
  { p with traps := match action with
      | some t => (signal, t) :: others
      | none => others }

/-- The characters that separate fields. -/
def separators (p : Process) : Text := (p.value? "IFS".toList).getD [' ', '\t', '\n']

/-- The traps of the shell whose number this one has. -/
def ownTraps (p : Process) : List (Nat × Text) := if p.inner then p.mainTraps else p.traps

/-- A part of a shell that goes on by itself: what would be run for a signal is forgotten, what is ignored stays
ignored. -/
def part (p : Process) : Process :=
  { p with
    traps := p.traps.filter fun t => t.2 == []
    mainTraps := p.ownTraps
    inner := true
    jobs := [] }

/-- The variables that a program sees. -/
def exports (p : Process) : List (Text × Text) :=
  p.store.filterMap fun v => if v.2.exported then v.2.value.map fun t => (v.1, t) else none

end Process

/-! ## Machines -/

/-- Everything that a script can change. -/
structure Machine where
  /-- the files -/
  tree : Tree
  /-- the streams -/
  streams : Array Stream
  /-- the shell that is running -/
  process : Process
  /-- the number of the next program -/
  next : Nat
  /-- signals that have arrived and are trapped, with the number of the shell -/
  pending : List (Nat × Nat)

namespace Machine

/-- The machine of a shell in a tree. It reads nothing, and what it prints and what it prints on standard error are
kept apart. -/
def start (tree : Tree) (p : Process) : Machine :=
  { tree
    streams := #[⟨.null, true, false, false⟩, ⟨.pipe [], false, true, false⟩, ⟨.pipe [], false, true, false⟩]
    process := p
    next := p.number + 1
    pending := [] }

/-- What a file holds. -/
def fileText (m : Machine) (l : Location) : Text :=
  match m.tree.get? l with
  | some (.file octets) => ofOctets octets
  | _ => []

/-- What can be read from a stream; none if it is not for reading. -/
def contents? (m : Machine) (stream : Nat) : Option Text :=
  match m.streams[stream]? with
  | some s =>
    if !s.readable then none
    else match s.medium with
      | .pipe t => some t
      | .file l offset => some ((m.fileText l).drop offset)
      | .null => some []
  | none => none

/-- What can be read from a stream. -/
def contents (m : Machine) (stream : Nat) : Text := (m.contents? stream).getD []

/-- Where the file stands that a stream leads to, if it leads to one. -/
def location? (m : Machine) (stream : Nat) : Option Location :=
  match m.streams[stream]? with
  | some ⟨.file l _, _, _, _⟩ => some l
  | _ => none

/-- Takes some of what can be read from a stream away. -/
def consume (m : Machine) (stream count : Nat) : Machine :=
  match m.streams[stream]? with
  | some s =>
    let medium := match s.medium with
      | .pipe t => .pipe (t.drop count)
      | .file l offset => .file l (offset + count)
      | .null => .null
    { m with streams := m.streams.setIfInBounds stream { s with medium } }
  | none => m

/-- A text with another written into it at a place. A gap in front of it is filled with the least character. -/
def overwrite (old : Text) (offset : Nat) (t : Text) : Text :=
  old.take offset ++ List.replicate (offset - old.length) (Char.ofNat 0) ++ t ++ old.drop (offset + t.length)

/-- Writes to a stream, if that is possible. -/
def write? (m : Machine) (stream : Nat) (t : Text) : Option Machine :=
  match m.streams[stream]? with
  | none => none
  | some s =>
    if !s.writable then none
    else match s.medium with
      | .null => some m
      | .pipe u => some { m with streams := m.streams.setIfInBounds stream { s with medium := .pipe (u ++ t) } }
      | .file l offset =>
        let old := m.fileText l
        let place := if s.atEnd then old.length else offset
        let node : Node := .file (toOctets (overwrite old place t))
        some { m with
          tree := m.tree.put l.dropLast (l.getLastD []) node
          streams := m.streams.setIfInBounds stream { s with medium := .file l (place + t.length) } }

/-- Adds a stream, and gives its number. -/
def add (m : Machine) (s : Stream) : Machine × Nat := ({ m with streams := m.streams.push s }, m.streams.size)

end Machine

/-! ## Actions -/

/-- What breaks off what surrounds it. -/
inductive Unwind where
  /-- the shell ends with the status it has -/
  | finish
  /-- the shell ends with the status it has, and nothing is run any more: another program took its place -/
  | replaced
  /-- something is wrong with the script -/
  | fault
  /-- a shell is killed by a signal -/
  | killed (number signal : Nat)
  /-- some loops are left -/
  | leaveLoops (n : Nat)
  /-- some loops are left but the last, which goes on -/
  | nextRound (n : Nat)
  /-- a function is left -/
  | leaveFunction
  /-- the script goes on for too long -/
  | exhausted
  deriving DecidableEq, Repr

/-- What a script does. -/
abbrev Act := ExceptT Unwind (StateM Machine)

namespace Act

/-- The shell that is running. -/
def process : Act Process := do return (← get).process

/-- Changes the shell that is running. -/
def update (f : Process → Process) : Act Unit := modify fun m => { m with process := f m.process }

/-- The status of the last command. -/
def status : Act Nat := do return (← process).status

/-- Sets the status. -/
def setStatus (n : Nat) : Act Unit := update fun p => { p with status := n }

/-- Adds a stream, and gives its number. -/
def newStream (s : Stream) : Act Nat := do
  let (m, n) := (← get).add s
  set m
  return n

/-- Writes to a stream, if there is one that takes it. Nothing can be written anywhere. -/
def writeTo (stream : Option Nat) (t : Text) : Act Bool := do
  if t = [] then return true
  match stream with
  | none => return false
  | some n =>
    match (← get).write? n t with
    | none => return false
    | some m => do
      set m
      return true

/-- Writes to a descriptor. -/
def write (descriptor : Nat) (t : Text) : Act Bool := do writeTo ((← process).stream? descriptor) t

/-- Prints, and gives a status, which is never zero if printing fails. -/
def print (t : Text) (status : Nat) : Act Nat := do
  if ← write 1 t then return status else return Nat.lor status 1

/-- Sets a variable, which must not be fixed. -/
def assign (name value : Text) : Act Unit := do
  let p ← process
  match p.get? name with
  | some v => do
    if v.fixed then throw .fault
    update fun p => p.put name (some { v with value := some value })
  | none => update fun p => p.put name (some ⟨some value, p.has 'a', false⟩)

/-- Runs an action in another shell, and comes back to this one with the status. A shell that is killed takes the
shells with it that have its number. -/
def apart (change : Process → Process) (body : Act Unit) : Act Nat := fun m =>
  let saved := m.process
  match body { m with process := change saved } with
  | (result, after) =>
    let m := { after with process := saved }
    match result with
    | .error (.killed number signal) =>
      if (saved.number :: saved.starters.map Prod.fst).elem number then (.error (.killed number signal), m)
      else (.ok (128 + signal), m)
    | .error .exhausted => (.error .exhausted, m)
    | _ => (.ok (after.process.status % 256), m)

/-- What an action breaks off, if anything. -/
def outcome (body : Act Unit) : Act (Option Unwind) := do
  try
    body
    return none
  catch u =>
    return some u

end Act

end ErrnoBindings.Utility.Shell
