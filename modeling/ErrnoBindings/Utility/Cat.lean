import ErrnoBindings.Text.Numeral
import ErrnoBindings.Utility.Files

/-!
# Cat

`cat` prints what the files hold that it is given, one after the other, and what it reads itself for a dash or when
it is given none. A file that cannot be read is passed over, and makes the status one. Options may stand among the
operands: they number lines, squeeze empty ones, and show what cannot be seen. All of them look at what is printed
as one long text, so they are applied to the files joined together (`Cat.display`).
-/

namespace ErrnoBindings.Utility.Cat

/-- How `cat` displays what it prints. -/
structure Display where
  /-- lines that are not empty are numbered -/
  numberFilled : Bool
  /-- lines are numbered -/
  number : Bool
  /-- of several empty lines in a row, one is printed -/
  squeeze : Bool
  /-- characters that cannot be seen are shown -/
  invisible : Bool
  /-- ends of lines are shown -/
  ends : Bool
  /-- tabs are shown -/
  tabs : Bool
  deriving DecidableEq, Repr

/-- Nothing is changed. -/
def asIs : Display := ⟨false, false, false, false, false, false⟩

/-! ## Options -/

/-- What an option letter adds to a display, if it is one. -/
def letter? (d : Display) : Char → Option Display
  | 'A' => some { d with invisible := true, ends := true, tabs := true }
  | 'b' => some { d with number := true, numberFilled := true }
  | 'e' => some { d with invisible := true, ends := true }
  | 'E' => some { d with ends := true }
  | 'n' => some { d with number := true }
  | 's' => some { d with squeeze := true }
  | 't' => some { d with invisible := true, tabs := true }
  | 'T' => some { d with tabs := true }
  | 'u' => some d
  | 'v' => some { d with invisible := true }
  | _ => none

/-- The letters of the options with long names. Two of them have none, and ask for a description instead. -/
def longNames : List (Text × Option Char) :=
  [("number-nonblank".toList, some 'b'), ("number".toList, some 'n'), ("squeeze-blank".toList, some 's'),
    ("show-nonprinting".toList, some 'v'), ("show-ends".toList, some 'E'), ("show-tabs".toList, some 'T'),
    ("show-all".toList, some 'A'), ("help".toList, none), ("version".toList, none)]

/-- The option that a long name means: the one with that name, or the only one that begins with it. -/
def longName? (name : Text) : Option (Text × Option Char) :=
  match longNames.find? fun p => p.1 == name with
  | some p => some p
  | none =>
    match longNames.filter fun p => name.isPrefixOf p.1 with
    | [p] => some p
    | _ => none

/-- What arguments ask of `cat`. -/
inductive Request where
  /-- an option is not known -/
  | refused
  /-- a description, by the name of the option that asks for it -/
  | description (option : Text)
  /-- to print the operands in some display -/
  | print (d : Display) (operands : List Text)
  deriving DecidableEq, Repr

/-- Puts an operand in front. -/
def Request.withOperand (a : Text) : Request → Request
  | print d operands => print d (a :: operands)
  | r => r

/-- Reads arguments. -/
def Request.ofArguments (d : Display) : List Text → Request
  | [] => print d []
  | a :: rest =>
    match a with
    | '-' :: '-' :: name =>
      if name = [] then print d rest
      else match longName? name with
        | none => refused
        | some (option, none) => description option
        | some (_, some c) => match letter? d c with
          | some d' => ofArguments d' rest
          | none => refused
    | '-' :: c :: cs =>
      match (c :: cs).foldlM letter? d with
      | some d' => ofArguments d' rest
      | none => refused
    | _ => (ofArguments d rest).withOperand a

/-! ## Display -/

/-- A character that cannot be seen, as it is shown. Octets that are not ASCII are shown by what is left of them
without their highest bit. -/
def visible (d : Display) (c : Char) : Text :=
  let low (n : Nat) : Text :=
    if n < 0x20 then ['^', Char.ofNat (n + 0x40)] else if n = 0x7F then ['^', '?'] else [Char.ofNat n]
  if c = '\t' then (if d.tabs then ['^', 'I'] else [c])
  else if !d.invisible then [c]
  else if c.toNat < 0x80 then low c.toNat
  else 'M' :: '-' :: low (c.toNat - 0x80)

/-- Where a display stands: the number of the next line, whether a line has begun, and how many empty lines stand
before. -/
structure Position where
  /-- the number of the next line that is numbered -/
  line : Nat
  /-- whether something of a line stands before -/
  within : Bool
  /-- how many empty lines stand before -/
  empty : Nat
  deriving DecidableEq, Repr

/-- The number of a line in its column. -/
def lineNumber (n : Nat) : Text :=
  let ds := decimal n
  List.replicate (6 - ds.length) ' ' ++ ds ++ ['\t']

/-- Displays a text from a position on. -/
def displayFrom (d : Display) : Position → Text → Text
  | _, [] => []
  | p, c :: cs =>
    if c = '\n' then
      let shown : Text := (if d.ends then ['$'] else []) ++ ['\n']
      if p.within then shown ++ displayFrom d ⟨p.line, false, 0⟩ cs
      else if d.squeeze ∧ 0 < p.empty then displayFrom d p cs
      else if d.number && !d.numberFilled then
        lineNumber p.line ++ shown ++ displayFrom d ⟨p.line + 1, false, p.empty + 1⟩ cs
      else shown ++ displayFrom d ⟨p.line, false, p.empty + 1⟩ cs
    else
      let shown := if c = '\r' ∧ d.ends ∧ cs.head? = some '\n' then ['^', 'M'] else visible d c
      if !p.within && d.number then lineNumber p.line ++ shown ++ displayFrom d ⟨p.line + 1, true, 0⟩ cs
      else shown ++ displayFrom d ⟨p.line, true, 0⟩ cs

/-- Displays a text. -/
def display (d : Display) (t : Text) : Text := if d = asIs then t else displayFrom d ⟨1, false, 0⟩ t

/-! ## The program -/

/-- What a call of `cat` leaves behind. -/
structure Result where
  /-- the status -/
  status : Nat
  /-- what it printed -/
  output : Text
  /-- whether it read what stands before it -/
  consumed : Bool
  deriving DecidableEq, Repr

/-- Reads operands one after the other. A dash stands for what `cat` reads itself, which is used up by that. -/
def readOperands (read : Text → Option Text) : Option Text → List Text → Result
  | _, [] => ⟨0, [], false⟩
  | input, a :: rest =>
    if a = ['-'] then
      match input with
      | some t =>
        let r := readOperands read (some []) rest
        { r with output := t ++ r.output, consumed := true }
      | none => { readOperands read none rest with status := 1 }
    else
      let r := readOperands read input rest
      match read a with
      | some contents => { r with output := contents ++ r.output }
      | none => { r with status := 1 }

/-- The program, under the name by which it was called, with a way to read files and what it reads itself, if
it can. -/
def run (read : Text → Option Text) (called : Text) (input : Option Text) (args : List Text) : Result :=
  match Request.ofArguments asIs args with
  | .refused => ⟨1, [], false⟩
  | .description option =>
    ⟨0, if option = "help".toList then helpLine called " [OPTION]... [FILE]...".toList else versionLine "cat".toList,
      false⟩
  | .print d operands =>
    let r := readOperands read input (if operands = [] then [['-']] else operands)
    { r with output := display d r.output }

end ErrnoBindings.Utility.Cat
