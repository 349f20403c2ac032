import ErrnoBindings.Utility.Printf.Basic
import ErrnoBindings.Utility.Shell.Condition
import ErrnoBindings.Utility.Shell.Glyph
import ErrnoBindings.Utility.Shell.Machine

/-!
# Commands on variables and arguments

These commands of the shell set variables and arguments, and say what programs see and what stays as it is. Each
takes its arguments and gives a status; a mistake that ends a script is a fault.
-/

namespace ErrnoBindings.Utility.Shell

namespace Builtin

/-- The greatest number that an argument may be. -/
def greatestNumber : Nat := Nat.pow 2 31 - 1

/-- An argument as a number. -/
def number (t : Text) : Act Nat :=
  match Condition.number? t with
  | some v => if 0 ≤ v ∧ v ≤ greatestNumber then return v.toNat else throw .fault
  | none => throw .fault

/-- A text behind an opening quote, up to the closing quote. A single quote stands between double quotes. -/
def quotedFrom (single : Bool) : Text → Text
  | [] => if single then ['\x27'] else ['"']
  | c :: cs =>
    if single ∧ c = '\x27' then '\x27' :: '"' :: c :: quotedFrom false cs
    else if !single ∧ c ≠ '\x27' then '"' :: '\x27' :: c :: quotedFrom true cs
    else c :: quotedFrom single cs

/-- A text in quotes, as it would be written in a script. -/
def inQuotes (t : Text) : Text :=
  match t with
  | '\x27' :: cs => '"' :: '\x27' :: quotedFrom false cs
  | t => '\x27' :: quotedFrom true t

/-- The name and the value of an argument that has the form of an assignment, or its name alone. -/
def declaration (a : Text) : Text × Option Text :=
  let name := a.takeWhile fun c => c != '='
  match a.dropWhile fun c => c != '=' with
  | [] => (name, none)
  | _ :: value => (name, some value)

/-- The variables with a property, in order, as they would be declared in a script. -/
def declarations (command : Text) (p : Process) (wanted : Variable → Bool) : Text :=
  let lines := (p.store.filter fun v => wanted v.2).map fun v =>
    command ++ [' '] ++ v.1 ++ match v.2.value with
      | some t => '=' :: inQuotes t
      | none => []
  unlines (lines.mergeSort fun a b => !decide (b < a))

/-- Declares variables: assigns to those that come with a value, and changes them all. -/
def declare (command : Text) (wanted : Variable → Bool) (change : Variable → Variable) (args : List Text) :
    Act Nat := do
  let names := match args with
    | ['-', 'p'] :: rest => rest
    | args => operandsBehindDashes args
  if names = [] then Act.print (declarations command (← Act.process) wanted) 0
  else
    names.forM fun a => do
      let (name, value) := declaration a
      if !isName name then throw .fault
      match value with
      | some t => Act.assign name t
      | none => pure ()
      Act.update fun p => p.put name (some (change ((p.get? name).getD ⟨none, false, false⟩)))
    return 0

/-- Makes programs see variables. -/
def exportVariables : List Text → Act Nat :=
  declare "export".toList (fun v => v.exported) fun v => { v with exported := true }

/-- Makes variables stay as they are. -/
def fixVariables : List Text → Act Nat :=
  declare "readonly".toList (fun v => v.fixed) fun v => { v with fixed := true }

/-- Makes variables belong to the function that is running. -/
def keepLocal (args : List Text) : Act Nat := do
  if (← Act.process).calls = 0 then throw .fault
  args.forM fun a => do
    let (name, value) := declaration a
    if !isName name then throw .fault
    Act.update fun p => { p with locals := (name, p.get? name) :: p.locals }
    match value with
    | some t => Act.assign name t
    | none => pure ()
  return 0

/-- Takes variables away, or functions. -/
def unsetNames (args : List Text) : Act Nat := do
  let (functions, names) := match args with
    | ['-', 'f'] :: rest => (true, operandsBehindDashes rest)
    | ['-', 'v'] :: rest => (false, operandsBehindDashes rest)
    | args => (false, operandsBehindDashes args)
  names.forM fun name => do
    if functions then Act.update fun p => { p with functions := p.functions.filter fun f => f.1 != name }
    else do
      if !isName name || ((← Act.process).get? name).any Variable.fixed then throw .fault
      Act.update fun p => p.put name none
  return 0

/-- Takes arguments away. -/
def shift (args : List Text) : Act Nat := do
  let n ← match args with
    | [] => pure 1
    | a :: _ => number a
  let p ← Act.process
  if p.arguments.length < n then throw .fault
  Act.update fun p => { p with arguments := p.arguments.drop n, optionPlace := none }
  return 0

/-! ## Options of the shell -/

/-- The options by letter and name. Some have no letter of their own. -/
def optionNames : List (Char × String) :=
  [('e', "errexit"), ('f', "noglob"), ('I', "ignoreeof"), ('i', "interactive"), ('m', "monitor"), ('n', "noexec"),
    ('s', "stdin"), ('x', "xtrace"), ('v', "verbose"), ('V', "vi"), ('E', "emacs"), ('C', "noclobber"),
    ('a', "allexport"), ('b', "notify"), ('u', "nounset"), ('N', "nolog"), ('D', "debug")]

/-- Turns an option on or off by letter. -/
def turn (on : Bool) (letter : Char) : Act Unit := do
  if (optionNames.any fun o => o.1 == letter) && letter != 'N' && letter != 'D' then
    Act.update fun p => p.turn on letter
  else throw .fault

/-- Turns an option on or off by name. -/
def turnByName (on : Bool) (name : Text) : Act Unit :=
  match optionNames.find? fun o => o.2.toList == name with
  | some o => Act.update fun p => p.turn on o.1
  | none => throw .fault

/-- What the options in front of some arguments leave: the arguments behind them, and whether they were ended by
dashes. `letters` is asked first what to do with a letter. -/
def readOptions (first : Char → Option (Act Unit)) : Nat → List Text → Act (List Text × Bool)
  | 0, args => return (args, false)
  | fuel + 1, args =>
    match args with
    | ['-'] :: rest => return (rest, true)
    | ['-', '-'] :: rest => return (rest, true)
    | (sign :: letters) :: rest =>
      if sign = '-' ∨ sign = '+' then do
        let on := sign == '-'
        let rest ← letters.foldlM (fun rest letter => do
          if letter = 'o' then
            match rest with
            | name :: rest => do
              turnByName on name
              return rest
            | [] => return []
          else do
            match first letter with
            | some act => act
            | none => turn on letter
            return rest) rest
        readOptions first fuel rest
      else return (args, false)
    | args => return (args, false)

/-- Sets options and arguments. Without arguments it shows what is set. -/
def setAll (args : List Text) : Act Nat := do
  match args with
  | [] => do
    let p ← Act.process
    let lines := p.store.filterMap fun v => v.2.value.map fun t => v.1 ++ '=' :: inQuotes t
    Act.print (unlines (lines.mergeSort fun a b => !decide (b < a))) 0
  | _ => do
    let (rest, ended) ← readOptions (fun _ => none) args.length args
    let dashes := args.elem ['-', '-']
    if rest ≠ [] ∨ (ended ∧ dashes) then
      Act.update fun p => { p with arguments := rest, optionPlace := none }
    return 0

/-! ## Reading -/

/-- A glyph more on a line, and so many characters. -/
def withGlyph (g : Glyph) (k : Nat) (found : List Glyph × Nat × Bool) : List Glyph × Nat × Bool :=
  (g :: found.1, found.2.1 + k, found.2.2)

/-- The line at the front of a text as glyphs, the number of characters it takes, and whether it is whole. Unless
everything is taken as it is, a backslash quotes the character behind it, and joins lines. -/
def lineOf (raw : Bool) : Text → List Glyph × Nat × Bool
  | [] => ([], 0, false)
  | '\\' :: c :: cs =>
    if raw then withGlyph (.char '\\' false true) 1 (lineOf raw (c :: cs))
    else
      let (gs, n, whole) := lineOf raw cs
      if c = '\n' then (gs, n + 2, whole) else (.char c true false :: gs, n + 2, whole)
  | c :: cs =>
    if c = '\n' then ([], 1, true)
    else if c = '\\' ∧ !raw then ([], 1, false)
    else if c = Char.ofNat 0 then
      let (gs, n, whole) := lineOf raw cs
      (gs, n + 1, whole)
    else withGlyph (.char c false true) 1 (lineOf raw cs)

/-- Whether a line is taken as it is, by the options in front of some names, and the names. -/
def lineOptions (raw : Bool) : List Text → Option (Bool × List Text)
  | ['-', '-'] :: rest => some (raw, rest)
  | ['-', 'r'] :: rest => lineOptions true rest
  | ['-', 'p'] :: _ :: rest => lineOptions raw rest
  | ['-'] :: rest => some (raw, ['-'] :: rest)
  | ('-' :: _) :: _ => none
  | rest => some (raw, rest)

/-- Reads a line into variables. -/
def readLine (args : List Text) : Act Nat := do
  match lineOptions false args with
  | none => throw .fault
  | some (_, []) => throw .fault
  | some (raw, names) => do
    let p ← Act.process
    let m ← get
    let (gs, count, whole) := lineOf raw (((p.stream? 0).map m.contents).getD [])
    match p.stream? 0 with
    | some stream => set (m.consume stream count)
    | none => pure ()
    let values := Fields.forPlaces p.separators names.length gs
    (names.zip (values ++ List.replicate names.length [])).forM fun a => do
      if !isName a.1 then throw .fault
      Act.assign a.1 a.2
    return if whole then 0 else 1

end Builtin

end ErrnoBindings.Utility.Shell
