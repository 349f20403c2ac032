import ErrnoBindings.Utility.Shell.Builtin.Variables

/-!
# Options among arguments

`getopts` goes through the options among some arguments, one letter at each call. It keeps its place in a variable,
the number of the next argument, and inside of the shell, the place in the argument before that one
(`Process.optionPlace`). What it finds is worked out first (`OptionStep.of`), and set afterwards.
-/

namespace ErrnoBindings.Utility.Shell

namespace Builtin

/-- What a call finds. -/
structure OptionStep where
  /-- the letter, or the sign for something that is wrong -/
  letter : Char
  /-- the argument of the option: nothing to set, or what it holds, which may be nothing at all -/
  argument : Option (Option Text)
  /-- the number of the next argument -/
  next : Nat
  /-- the place in the argument before that -/
  place : Option Nat
  /-- whether there is no option left -/
  finished : Bool
  deriving DecidableEq, Repr

namespace OptionStep

/-- How an option letter is used: not at all, alone, or with an argument. -/
inductive Use where
  /-- it is not an option -/
  | unknown
  /-- it stands alone -/
  | alone
  /-- it has an argument -/
  | withArgument
  deriving DecidableEq, Repr

/-- The use of a letter. -/
def use (c : Char) : Text → Use
  | [] => .unknown
  | x :: ':' :: rest => if x = c then .withArgument else use c rest
  | x :: rest => if x = c then .alone else use c rest

/-- What is found at a letter, given the text behind it in its argument, the arguments behind that, and the number
of the next. -/
def atLetter (letters : Text) (quiet : Bool) (c : Char) (behind : Text) (place : Nat) (rest : List Text)
    (next : Nat) : OptionStep :=
  let wrong (sign : Char) : Option (Option Text) × Char := if quiet then (some (some [c]), sign) else (some none, '?')
  let on : Option Nat := some place
  match use c letters with
  | .unknown =>
    let (argument, letter) := wrong '?'
    ⟨letter, argument, next, on, false⟩
  | .alone => ⟨c, some (some []), next, on, false⟩
  | .withArgument =>
    match behind, rest with
    | [], [] =>
      let (argument, letter) := wrong ':'
      ⟨letter, argument, next, none, false⟩
    | [], a :: _ => ⟨c, some (some a), next + 1, none, false⟩
    | t, _ => ⟨c, some (some t), next, none, false⟩

/-- What is found among arguments, given the number of the next one and the place in the one before. -/
def of (options : Text) (args : List Text) (next : Nat) (place : Option Nat) : OptionStep :=
  let quiet := options.head? == some ':'
  let letters := if quiet then options.tail else options
  let current : Text := match place with
    | some n => if 1 < next then ((args.getD (next - 2) []).drop n) else []
    | none => []
  match current with
  | c :: behind => atLetter letters quiet c behind (place.getD 0 + 1) (args.drop (next - 1)) next
  | [] =>
    match args.drop (next - 1) with
    | ['-', '-'] :: _ => ⟨'?', none, next + 1, none, true⟩
    | ('-' :: c :: behind) :: rest => atLetter letters quiet c behind 2 rest (next + 1)
    | _ => ⟨'?', none, next, none, true⟩

end OptionStep

/-- Goes on to the next option. -/
def getopts (args : List Text) : Act Nat := do
  match args with
  | options :: name :: given => do
    let p ← Act.process
    let index := "OPTIND".toList
    let next := match (p.value? index).bind Condition.number? with
      | some n => max n.toNat 1
      | none => 1
    let step := OptionStep.of options (if given = [] then p.arguments else given) next
      (if next = 1 then none else p.optionPlace)
    match step.argument with
    | some (some t) => Act.assign "OPTARG".toList t
    | some none => Act.update fun p => p.put "OPTARG".toList none
    | none => pure ()
    Act.assign index (decimal step.next)
    if !isName name then throw .fault
    Act.assign name [step.letter]
    Act.update fun p => { p with optionPlace := step.place }
    return if step.finished then 1 else 0
  | _ => throw .fault

end Builtin

end ErrnoBindings.Utility.Shell
