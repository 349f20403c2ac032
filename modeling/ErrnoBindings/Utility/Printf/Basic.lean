import ErrnoBindings.Utility.Printf.Directive
import ErrnoBindings.Utility.Quoting

/-!
# Printf

`printf` prints a format. Each directive in it takes an argument, and one more for each star; a missing argument
counts as empty, or as zero. When arguments are left at the end of a format that took some, the format is used
again.

The program and the shell do this in much the same way. An argument that is not the number that a directive wants is
printed as the number that it begins with, and makes the status one. A directive that there is not ends everything:
the program with status one, after what it has printed, and the shell with status two and nothing printed.
-/

namespace ErrnoBindings.Utility.Printf

/-- How the use of a format goes on. -/
inductive Course where
  /-- it goes on -/
  | goesOn
  /-- it ends here, as if the arguments had run out -/
  | ends
  /-- it ends here, with a status -/
  | endsWith (status : Nat)
  deriving DecidableEq, Repr

/-- What one use of a format, or a piece of it, leaves behind. -/
structure Pass where
  /-- what is printed -/
  output : Text
  /-- the arguments that are left -/
  left : List Text
  /-- whether every argument was what its directive wanted -/
  fine : Bool
  /-- how it goes on -/
  course : Course
  deriving DecidableEq, Repr

namespace Manner

/-- Whether there is a directive with these flags and this letter. -/
def knows (m : Manner) (d : Directive) (letter : Char) : Bool :=
  match m with
  | shell => "bcsdiouxXaAeEfFgG".toList.elem letter
  | program =>
    "aAcdeEfFgGiosuxX".toList.elem letter &&
    !((d.has '\x27' || d.has 'I') && "aAceEosxX".toList.elem letter) &&
    !(d.has '#' && "cdisu".toList.elem letter) &&
    !(d.has '0' && (letter == 'c' || letter == 's')) &&
    !(decide (d.precision ≠ .absent) && letter == 'c')

/-- The binary format of floating-point numbers. -/
def precision : Manner → Precision
  | program => extended
  | shell => double

/-- How an escape ends everything. -/
def stops : Manner → Course
  | program => .endsWith 0
  | shell => .ends

/-- How something that is refused ends everything. -/
def refuses : Manner → Course
  | program => .endsWith 1
  | shell => .endsWith 2

end Manner

/-- The number that an amount comes to, with the arguments that are left and whether it was fine. -/
def amount (m : Manner) (args : List Text) : Amount → Option Int × List Text × Bool
  | .absent => (none, args, true)
  | .number n => (some n, args, true)
  | .argument =>
    match args with
    | [] => (some 0, [], true)
    | a :: rest =>
      let r := readSigned m.inShell a
      (some r.value, rest, r.fine)

/-- The layout of a directive, given the width and the precision. A negative width puts the spaces behind, and a
negative precision is none. -/
def Directive.layout (d : Directive) (width precision : Option Int) : Layout :=
  { left := d.has '-' || decide (width.getD 0 < 0)
    plus := d.has '+'
    space := d.has ' '
    alternate := d.has '#'
    zero := d.has '0'
    width := (width.getD 0).natAbs
    precision := precision.bind fun n => if n < 0 then none else some n.toNat }

/-- Prints an argument by a layout and the letter of a conversion: the text, and whether the argument was fine. -/
def convert (m : Manner) (l : Layout) (letter : Char) (arg : Text) : Text × Bool :=
  let ofSigned (print : Int → Text) : Text × Bool :=
    let r := readSigned m.inShell arg
    (print r.value, r.fine)
  let ofUnsigned (print : Nat → Text) : Text × Bool :=
    let r := readUnsigned m.inShell arg
    (print r.value, r.fine)
  match letter with
  | 's' => (l.pad (arg.take (l.precision.getD arg.length)), true)
  | 'c' => (l.pad [arg.headD (Char.ofNat 0)], true)
  | 'd' => ofSigned l.signed
  | 'i' => ofSigned l.signed
  | 'u' => ofUnsigned l.unsigned
  | 'o' => ofUnsigned l.octal
  | 'x' => ofUnsigned (l.hexadecimal false)
  | 'X' => ofUnsigned (l.hexadecimal true)
  | _ =>
    let r := readFloating m.inShell m.precision arg
    (l.floating m.precision letter r.value, r.fine)

/-- Prints an argument with its escapes read. -/
def printEscapes (m : Manner) (l : Layout) (args : List Text) : Pass :=
  let (t, close) := Escape.read (match m with | .program => Escape.quoting | .shell => Escape.shellEchoing)
    (args.headD [])
  let course : Course :=
    match close with
    | .atEnd => .goesOn
    | .stopped => m.stops
    | .refused => m.refuses
  ⟨l.pad (t.take (l.precision.getD t.length)), args.tail, true, course⟩

/-- The greatest width and the greatest precision. -/
def greatestAmount : Nat := Nat.pow 2 31 - 1

/-- Uses a directive. -/
def useDirective (m : Manner) (args : List Text) (d : Directive) : Pass :=
  let bare := decide (d.flags = [] ∧ d.width = .absent ∧ d.precision = .absent)
  let refused : Pass := ⟨[], args, false, m.refuses⟩
  match d.letter with
  | none => refused
  | some letter =>
    let (width, afterWidth, widthFine) := amount m args d.width
    let (precision, afterPrecision, precisionFine) := amount m afterWidth d.precision
    let l := d.layout width precision
    let fine := widthFine && precisionFine
    if greatestAmount < l.width ∨ greatestAmount < l.precision.getD 0 then refused
    else if m = .program ∧ letter = 'b' ∧ bare then printEscapes m l args
    else if m = .program ∧ letter = 'q' ∧ bare then
      ⟨match args with | [] => [] | a :: _ => Quoting.quote a, args.tail, true, .goesOn⟩
    else if !m.knows d letter then refused
    else if letter = 'b' then
      let p := printEscapes m l afterPrecision
      { p with fine := p.fine && fine }
    else
      let (t, argFine) := convert m l letter (afterPrecision.headD [])
      ⟨t, afterPrecision.tail, fine && argFine, .goesOn⟩

/-- Uses a piece. -/
def usePiece (m : Manner) (args : List Text) : Piece → Pass
  | .text t => ⟨t, args, true, .goesOn⟩
  | .stop => ⟨[], args, true, m.stops⟩
  | .refused => ⟨[], args, false, m.refuses⟩
  | .directive d => useDirective m args d

/-- Uses a format once. -/
def pass (m : Manner) : List Piece → List Text → Pass
  | [], args => ⟨[], args, true, .goesOn⟩
  | p :: rest, args =>
    let here := usePiece m args p
    if here.course = .goesOn then
      let behind := pass m rest here.left
      ⟨here.output ++ behind.output, behind.left, here.fine && behind.fine, behind.course⟩
    else here

/-- The status with which everything ends after a use of the format, given whether everything was fine. -/
def Course.status (fine : Bool) : Course → Nat
  | .endsWith n => n
  | _ => if fine then 0 else 1

/-- Uses a format until no argument is left, or a use takes none, at most `n` times. -/
def passes (m : Manner) (ps : List Piece) : Nat → Bool → List Text → Text × Nat
  | 0, fine, _ => ([], Course.status fine .goesOn)
  | n + 1, fine, args =>
    let once := pass m ps args
    let fine := fine && once.fine
    if once.course ≠ .goesOn ∨ once.left = [] ∨ once.left.length = args.length then
      (once.output, once.course.status fine)
    else
      let (out, status) := passes m ps n fine once.left
      (once.output ++ out, status)

/-- Prints a format with arguments. Each use of the format that is followed by another takes an argument, so there
are enough uses. -/
def run (m : Manner) (format : Text) (args : List Text) : Text × Nat :=
  passes m (Piece.ofFormat m format) (args.length + 1) true args

end Printf

/-- The operands of a call: two dashes in front say that options are over. -/
def operandsBehindDashes (args : List Text) : List Text :=
  match args with
  | a :: rest => if a = "--".toList then rest else args
  | [] => []

/-- The program, under the name by which it was called. -/
def printf (called : Text) (args : List Text) : Finish :=
  match selfDescription? called "printf".toList " FORMAT [ARGUMENT]...".toList args with
  | some description => .print 0 description
  | none =>
    match operandsBehindDashes args with
    | [] => .print 1 []
    | format :: rest =>
      let (out, status) := Printf.run .program format rest
      .print status out

/-- The shell's own: what it prints, and a status. It has no options. -/
def shellPrintf (args : List Text) : Text × Nat :=
  match operandsBehindDashes args with
  | [] => ([], 2)
  | format :: rest =>
    if args.head? = some format ∧ format.head? = some '-' ∧ format ≠ ['-'] then ([], 2)
    else Printf.run .shell format rest

end ErrnoBindings.Utility
