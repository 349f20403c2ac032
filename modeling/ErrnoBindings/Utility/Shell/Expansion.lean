import ErrnoBindings.Utility.Shell.Arithmetic
import ErrnoBindings.Utility.Shell.Glyph
import ErrnoBindings.Utility.Shell.Grammar
import ErrnoBindings.Utility.Shell.Machine
import ErrnoBindings.Utility.Shell.Paths

/-!
# Filling words in

A word is filled in part by part. Parameters and arithmetic need nothing but the shell; what a command prints is
asked of whoever runs commands, which is handed in (`Runner`). The outcome is a row of glyphs, from which a caller
takes what it wants: fields (`Expansion.fields`), a single text (`Expansion.text`), or a pattern
(`Expansion.pattern`).

Operands are words themselves, read when they are needed; since an operand is shorter than the word it stands in,
the depth to which this goes on is bounded, and fuel keeps the definition structural.
-/

namespace ErrnoBindings.Utility.Shell

namespace Expansion

/-- Runs a script and gives what it prints, without the ends of lines at its end. -/
abbrev Runner := Text → Act Text

/-! ## Parameters -/

/-- The letters of options in the order in which they are shown. -/
def shownOptions : Text := "ubaCEVvxsnmiIfe".toList

/-- The character that is put between arguments to make one text of them. -/
def joint (p : Process) : Text :=
  match p.value? "IFS".toList with
  | some separators => separators.take 1
  | none => [' ']

/-- All arguments as one text. -/
def joined (p : Process) : Text := (joint p).intercalate p.arguments

/-- What a parameter holds, if it is set. -/
def value? (p : Process) (name : Text) : Option Text :=
  match name with
  | ['@'] => some (joined p)
  | ['*'] => some (joined p)
  | ['#'] => some (decimal p.arguments.length)
  | ['?'] => some (decimal p.status)
  | ['$'] => some (decimal p.number)
  | ['!'] => p.jobs.head?.map fun j => decimal j.1
  | ['-'] => some (shownOptions.filter p.has)
  | _ =>
    if name ≠ [] ∧ name.all Char.isDigit then
      match Nat.ofDigitChars 10 name 0 with
      | 0 => some p.name
      | n + 1 => p.arguments[n]?
    else p.value? name

/-- Whether a parameter stands for all arguments. -/
def isAll (name : Text) : Bool := name == ['@'] || name == ['*']

/-- The value of a parameter, which has to be set where the shell is told to insist on that. -/
def demand (name : Text) : Act Text := do
  let p ← Act.process
  match value? p name with
  | some v => return v
  | none => if p.has 'u' then throw .fault else return []

/-- What no value has in it. Where it stands between values, patterns look no further. -/
def separator : Char := Char.ofNat 0

/-- A text without what a pattern matches at its end or at its front. -/
def without (atEnd longest : Bool) (ps : List Pattern.Piece) (t : Text) : Text :=
  let counts := List.range (t.length + 1)
  let isMatch (u : Text) : Bool := Pattern.accepts ps (u.takeWhile fun c => c != separator)
  if atEnd then
    match (if longest then counts else counts.reverse).find? fun n => isMatch (t.drop n) with
    | some n => t.take n
    | none => t
  else
    match (if longest then counts.reverse else counts).find? fun n => isMatch (t.take n) with
    | some n => t.drop n
    | none => t

/-- A value as glyphs. A quoted one makes a field of its own even if it is empty. -/
def ofValue (quoted : Bool) (t : Text) : List Glyph :=
  (if quoted then [.anchor] else []) ++ Glyph.ofText quoted true t

/-- Whether a parameter stands for arguments that are kept apart, which it does where fields are wanted, unless it
asks for one text. -/
def keepsApart (name : Text) (full quoted : Bool) : Bool := isAll name && full && (name == ['@'] || !quoted)

/-- Arguments as glyphs, kept apart. -/
def ofArguments (quoted : Bool) (args : List Text) : List Glyph :=
  [Glyph.gap].intercalate (args.map fun a => ofValue quoted a)

/-- The value of a parameter as glyphs. -/
def ofParameter (name : Text) (full quoted : Bool) : Act (List Glyph) := do
  if keepsApart name full quoted then return ofArguments quoted (← Act.process).arguments
  else return ofValue quoted (← demand name)

/-- The value of a parameter without what a pattern matches at its end or at its front. Arguments that are kept
apart are one text for that. -/
def ofTrimmed (name : Text) (full quoted atEnd longest : Bool) (ps : List Pattern.Piece) : Act (List Glyph) := do
  if keepsApart name full quoted then
    match (← Act.process).arguments with
    | [] => return []
    | args =>
      let t := without atEnd longest ps ([separator].intercalate args)
      return ofArguments quoted (t.foldr (fun c found => if c = separator then [] :: found else attach c found) [[]])
  else return ofValue quoted (without atEnd longest ps (← demand name))

/-! ## Arithmetic -/

/-- Computes an expression and makes its assignments. -/
def compute (expression : Text) : Act Text := do
  let p ← Act.process
  let lookup (name : Text) : Option Int64 :=
    match p.value? name with
    | some t => Arithmetic.numberOf? t
    | none => some 0
  match Arithmetic.Expression.ofText? expression with
  | none => throw .fault
  | some e =>
    match e.value lookup [] with
    | none => throw .fault
    | some (v, made) => do
      made.reverse.forM fun a => Act.assign a.1 (Numeral.print a.2)
      return Numeral.print v

/-! ## Words -/

/-- A word with the directory that a tilde in front stands for, if it stands alone or in front of a slash. -/
def atHome (home : Option Text) (w : Word) : Word :=
  match home, w with
  | some h, .literal ('~' :: t) false :: rest =>
    if t.head? = some '/' ∨ (t = [] ∧ rest = []) then .literal h true :: .literal t false :: rest else w
  | _, _ => w

/-- Fills in a part. `full` says whether fields are wanted, and `operand` whether the part stands in an operand,
where text that is not quoted can be split as if it had been filled in. -/
def ofPart (run : Runner) : Nat → Bool → Bool → Part → Act (List Glyph)
  | 0, _, _, _ => throw .exhausted
  | fuel + 1, full, operand, part => do
    let ofText (place : Place) (full : Bool) (t : Text) : Act (List Glyph) :=
      match Word.ofText? .standard place t with
      | none => throw .fault
      | some w => do
        let home := (← Act.process).value? "HOME".toList
        let w := if place = .operand then atHome home w else w
        return (← w.mapM (ofPart run fuel full true)).flatten
    let ofOperand (t : Text) (full quoted : Bool) : Act (List Glyph) := do
      let gs ← ofText (if quoted then .quotedOperand else .operand) full t
      return (if quoted then [.anchor] else []) ++ gs
    -- a parameter that might have been something else makes a field where it is quoted
    let anchored (quoted : Bool) (gs : List Glyph) : List Glyph := if quoted ∧ gs = [] then [.anchor] else gs
    match part with
    | .literal [] quoted => return if quoted then [.anchor] else []
    | .literal t quoted => return Glyph.ofText quoted operand t
    | .command script quoted => return ofValue quoted (← run script)
    | .arithmetic expression quoted => do
      let gs ← ofText .document false expression
      return ofValue quoted (← compute (Glyph.text gs))
    | .parameter name use quoted => do
      let p ← Act.process
      let counts (colon : Bool) : Bool :=
        match value? p name with
        | none => false
        | some v => !(colon && v.isEmpty)
      match use with
      | .value => ofParameter name full quoted
      | .length => return ofValue quoted (decimal (← demand name).length)
      | .otherwise colon t =>
        if counts colon then return anchored quoted (← ofParameter name full quoted) else ofOperand t full quoted
      | .instead colon t =>
        if counts colon then ofOperand t full quoted else return if quoted then [.anchor] else []
      | .insist colon _ => if counts colon then ofParameter name full quoted else throw .fault
      | .assign colon t => do
        if counts colon then ofParameter name full quoted
        else if isName name then do
          let v := Glyph.text (← ofOperand t false quoted)
          Act.assign name v
          return ofValue quoted v
        else throw .fault
      | .without atEnd longest t => do
        let ps := Pattern.ofMarked (Glyph.marked (← ofText .operand false t))
        return anchored quoted (← ofTrimmed name full quoted atEnd longest ps)
      | .bad => throw .fault

/-- How deep operands may stand in each other. -/
def depth : Nat := 100

/-- Fills in a word. -/
def glyphs (run : Runner) (full : Bool) (w : Word) : Act (List Glyph) := do
  let w := atHome ((← Act.process).value? "HOME".toList) w
  return (← w.mapM (ofPart run depth full false)).flatten

/-- A word as a single text. -/
def text (run : Runner) (w : Word) : Act Text := do return Glyph.text (← glyphs run false w)

/-- A word as a pattern. -/
def pattern (run : Runner) (w : Word) : Act (List Pattern.Piece) := do
  return Pattern.ofMarked (Glyph.marked (← glyphs run false w))

/-- The fields of a word, and the paths that they stand for. -/
def fieldsOf (run : Runner) (w : Word) : Act (List Text) := do
  let gs ← glyphs run true w
  let m ← get
  let paths (field : List Glyph) : List Text :=
    if m.process.has 'f' then [Glyph.text field]
    else match Paths.ofPattern m.tree m.process.directory (Glyph.marked field) with
      | [] => [Glyph.text field]
      | found => found
  return (Fields.ofGlyphs m.process.separators gs).flatMap paths

/-- The fields of some words. -/
def fields (run : Runner) (ws : List Word) : Act (List Text) := do return (← ws.mapM (fieldsOf run)).flatten

/-- The commands that read assignments among their arguments. -/
def declaring : List Text := ["export".toList, "local".toList, "readonly".toList]

/-- The words of a command. An argument that is an assignment is not split for commands that read them. -/
def commandFields (run : Runner) : List Word → Act (List Text)
  | [] => return []
  | w :: rest => do
    let front ← fieldsOf run w
    if front.head?.any declaring.elem then
      let behind ← rest.mapM fun a => do
        if a.assignment?.isSome then return [← text run a] else fieldsOf run a
      return front ++ behind.flatten
    else return front ++ (← if front = [] then commandFields run rest else fields run rest)

end Expansion

end ErrnoBindings.Utility.Shell
