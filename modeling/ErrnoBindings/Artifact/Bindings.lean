import ErrnoBindings.Artifact.Declarations
import ErrnoBindings.Artifact.Definitions
import ErrnoBindings.CLiteral.Reader
import ErrnoBindings.Text.Lines

/-!
# The bindings that two artifacts make

What the header and the source mean together is what a C program sees of them: constants with values, and a
function from values to descriptions. This module reads that meaning off the two texts, line by line, without
looking at the table that they were made from.

* In the header, a line `#define NAME VALUE` gives a constant its value. A constant that is defined again has the
  value of its last definition.
* In the source, a line `if (e == NAME) return LITERAL;` is a comparison. They are tried in order, and the first
  constant that is equal decides. A line `return LITERAL;` answers when none is.

Each kind of line is read back as the row that it stands for (`constant?_definition`, `comparison?_comparison`), as
long as the row's symbol has no space in it.
-/

namespace ErrnoBindings

/-- The bindings that a header and a source make. -/
structure Bindings where
  /-- the constants with their values, in the order of their definitions -/
  constants : List (Text × Int)
  /-- the names compared with and the texts returned, in the order of the comparisons -/
  comparisons : List (Text × Text)
  /-- the text returned when no comparison holds -/
  fallback : Text
  deriving DecidableEq, Repr

namespace Bindings

/-! ## Lines -/

/-- The number that an integer constant of C stands for: in octal behind a leading zero, in decimal otherwise. -/
def magnitude? : Text → Option Nat
  | '0' :: ds => if ds.all (fun c => (CLiteral.octalDigit? c).isSome) then some (Nat.ofDigitChars 8 ds 0) else none
  | ds => Numeral.magnitude? ds

/-- The value of a constant's body: an integer constant, or one with a minus sign in parentheses. -/
def value? : Text → Option Int
  | '(' :: '-' :: cs =>
    if cs.getLast? = some ')' then (magnitude? cs.dropLast).map fun n : Nat => -(n : Int) else none
  | cs => (magnitude? cs).map fun n : Nat => (n : Int)

/-- The constant that a line of a header defines. A macro without a body is none. -/
def constant? (line : Text) : Option (Text × Int) :=
  match behind? "#define ".toList line with
  | none => none
  | some rest =>
    match cutAtSpace rest with
    | (name, some body) => (value? body).map fun v => (name, v)
    | (_, none) => none

/-- The text that a statement returns. -/
def returned? (statement : Text) : Option Text :=
  match behind? "return ".toList statement with
  | none => none
  | some rest =>
    match CLiteral.scan? rest with
    | some (text, [';']) => some text
    | _ => none

/-- A line of a source without its indentation. -/
def statement (line : Text) : Text := line.dropWhile (· == ' ')

/-- The comparison on a line of a source: the name of the constant, which ends where the returned literal begins,
and the text of that literal. -/
def comparison? (line : Text) : Option (Text × Text) :=
  match behind? "if (e == ".toList (statement line) with
  | none => none
  | some rest =>
    match cutAt? ") return \"".toList rest with
    | none => none
    | some (name, behind) =>
      match CLiteral.scanBody behind with
      | some (text, [';']) => some (name, text)
      | _ => none

/-- The bindings of a header and a source; none if nothing is returned in the end. -/
def ofTexts? (header source : Text) : Option Bindings :=
  ((lines source).findSome? fun line => returned? (statement line)).map fun fallback =>
    ⟨(lines header).filterMap constant?, (lines source).filterMap comparison?, fallback⟩

/-! ## Evaluation -/

/-- The value of a constant: that of its last definition. -/
def constant (b : Bindings) (name : Text) : Option Int :=
  (b.constants.reverse.find? fun p => p.1 == name).map Prod.snd

/-- The text that comparisons return for a value, and that the bindings return if there are none. A comparison
with a constant that is not defined has no meaning. -/
def answer (b : Bindings) (e : Int) : List (Text × Text) → Option Text
  | [] => some b.fallback
  | (name, text) :: rest =>
    match b.constant name with
    | none => none
    | some v => if v = e then some text else b.answer e rest

/-- What the function returns for a value. -/
def strerror (b : Bindings) (e : Int) : Option Text := b.answer e b.comparisons

/-! ## The lines of a row -/

/-- A number in decimal is an integer constant, and none in octal: only zero starts with a zero. -/
theorem magnitude?_decimal (n : Nat) : magnitude? (decimal n) = some n := by
  by_cases hn : n = 0
  · subst hn
    rfl
  · have hhead := head?_decimal (Nat.pos_of_ne_zero hn)
    unfold magnitude?
    split
    · next ds h => exact absurd (by rw [h]; rfl) hhead
    · exact Numeral.magnitude?_decimal n

/-- The body of a constant is read as the value that it was made of. -/
theorem value?_constantValue (v : Int64) : value? (constantValue v) = some v.toInt := by
  unfold constantValue Numeral.print
  split
  · next h =>
    simp only [List.cons_append, value?, List.getLast?_concat, if_true, List.dropLast_concat, magnitude?_decimal,
      Option.map_some]
    exact congrArg some (by omega)
  · next h =>
    have hhead : (decimal v.toInt.natAbs).head? ≠ some '(' := fun hc => by
      have := isDigit_of_mem_decimal (List.mem_of_mem_head? hc)
      exact absurd this (by decide)
    unfold value?
    split
    · next heq => exact absurd (by rw [heq]; rfl) hhead
    · rw [magnitude?_decimal, Option.map_some]
      exact congrArg some (by omega)

/-- The line that defines a row's constant is read as that constant and the row's value. -/
theorem constant?_definition {r : Row} (h : ' ' ∉ r.symbol) :
    constant? r.definition = some (r.constantName, r.value.toInt) := by
  have hbehind : behind? "#define ".toList r.definition =
      some (r.constantName ++ ' ' :: constantValue r.value) :=
    behind?_eq_some_iff.mpr (List.append_assoc ..)
  have hcut := cutAtSpace_append (Row.space_not_mem_constantName h) (constantValue r.value)
  unfold constant?
  rw [hbehind]
  dsimp only
  rw [hcut]
  dsimp only
  rw [value?_constantValue]
  rfl

/-- The parts of a comparison, as a reader meets them. -/
theorem comparison_eq (r : Row) :
    r.comparison = ' ' :: ' ' :: ("if (e == ".toList ++ (r.constantName ++ (") return \"".toList ++
      (CLiteral.body r.description ++ ['"', ';'])))) := by
  have hcondition : "  if (e == ".toList = ' ' :: ' ' :: "if (e == ".toList := rfl
  have hreturn : ") return \"".toList = ") return ".toList ++ ['"'] := rfl
  have hend : ";".toList = [';'] := rfl
  unfold Row.comparison CLiteral.encode
  simp only [hcondition, hreturn, hend]
  generalize "if (e == ".toList = condition
  generalize ") return ".toList = result
  simp

theorem statement_comparison (r : Row) :
    statement r.comparison = "if (e == ".toList ++ (r.constantName ++ (") return \"".toList ++
      (CLiteral.body r.description ++ ['"', ';']))) := by
  rw [comparison_eq]
  rfl

/-- The comparison that stands for a row is read as the row's constant and its description. -/
theorem comparison?_comparison {r : Row} (h : ' ' ∉ r.symbol) :
    comparison? r.comparison = some (r.constantName, r.description) := by
  have hseparator : ") return \"".toList = ')' :: ' ' :: "return \"".toList := rfl
  have hbehind := behind?_eq_some_iff.mpr (statement_comparison r)
  have hcut := cutAt?_append (q := "return \"".toList) (show ')' ≠ ' ' by decide)
    (Row.space_not_mem_constantName h) (CLiteral.body r.description ++ ['"', ';'])
  rw [← hseparator] at hcut
  have hscan : CLiteral.scanBody (CLiteral.body r.description ++ ['"', ';']) = some (r.description, [';']) :=
    CLiteral.scanBody_bodyFrom false r.description [';']
  unfold comparison?
  rw [hbehind]
  dsimp only
  rw [hcut]
  dsimp only
  rw [hscan]
  rfl

end Bindings

end ErrnoBindings
