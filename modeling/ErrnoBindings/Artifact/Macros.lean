import ErrnoBindings.Artifact.Declarations

/-!
# The macros that a header defines

A header is included into a program that has macros of its own, and it may be included more than once. What an
inclusion does is said here, line by line, as a preprocessor would do it: `#ifndef` opens a conditional and
`#endif` closes one, conditionals nest, `#define` defines a macro, and a line that is none of these is passed on to
the compiler. Inside a conditional that does not hold, conditionals are still counted and nothing else is done.

An inclusion keeps the definitions that it makes in a list, the last one in front, and leaves the macros that were
there before alone. `Inclusion.value?` puts both together: the last definition of a name counts.
-/

namespace ErrnoBindings

/-- The macros that are defined, with what they stand for. -/
abbrev Macros := Text → Option Text

/-- What a line of a header tells the preprocessor. -/
inductive Directive where
  /-- opens a conditional that holds if a macro is not defined -/
  | ifNotDefined (name : Text)
  /-- closes a conditional -/
  | endConditional
  /-- defines a macro -/
  | define (name body : Text)
  /-- nothing: the line is the compiler's -/
  | passOn
  deriving DecidableEq, Repr

namespace Directive

/-- A word with what stands behind its first space; nothing stands behind a word that ends the line. -/
def operands (t : Text) : Text × Text := ((cutAtSpace t).1, (cutAtSpace t).2.getD [])

/-- The directive on a line. -/
def ofLine (line : Text) : Directive :=
  match operands line with
  | (keyword, rest) =>
    if keyword = "#ifndef".toList then ifNotDefined (operands rest).1
    else if keyword = "#endif".toList then endConditional
    else if keyword = "#define".toList then define (operands rest).1 (operands rest).2
    else passOn

end Directive

/-- An inclusion of a header that has come some way. -/
structure Inclusion where
  /-- the macros that were defined before -/
  before : Macros
  /-- the definitions made so far, the last one in front -/
  definitions : List (Text × Text)
  /-- the conditionals that are open, the innermost in front: whether what stands in them counts -/
  conditionals : List Bool
  /-- the lines that close a conditional where none is open -/
  unmatched : Nat
  /-- the lines passed on to the compiler, the last one in front -/
  passed : List Text

namespace Inclusion

/-- An inclusion that has read nothing. -/
def start (before : Macros) : Inclusion := ⟨before, [], [], 0, []⟩

/-- What a macro stands for, if it is defined. -/
def value? (s : Inclusion) : Macros := fun name =>
  match s.definitions.find? fun d => d.1 == name with
  | some d => some d.2
  | none => s.before name

/-- Whether the place reached counts: every conditional around it holds. -/
def counts (s : Inclusion) : Bool := s.conditionals.all id

/-- Reads a line. -/
def read (s : Inclusion) (line : Text) : Inclusion :=
  match Directive.ofLine line with
  | .ifNotDefined name => { s with conditionals := (s.value? name).isNone :: s.conditionals }
  | .endConditional =>
    match s.conditionals with
    | [] => { s with unmatched := s.unmatched + 1 }
    | _ :: outer => { s with conditionals := outer }
  | .define name body => if s.counts then { s with definitions := (name, body) :: s.definitions } else s
  | .passOn => if s.counts then { s with passed := line :: s.passed } else s

/-- Reads lines. -/
def readAll (s : Inclusion) (ls : List Text) : Inclusion := ls.foldl read s

/-- Includes a header where some macros are defined. -/
def ofLines (before : Macros) (ls : List Text) : Inclusion := (start before).readAll ls

@[simp] theorem readAll_nil (s : Inclusion) : s.readAll [] = s := rfl

@[simp] theorem readAll_cons (s : Inclusion) (l : Text) (ls : List Text) :
    s.readAll (l :: ls) = (s.read l).readAll ls := rfl

@[simp] theorem readAll_append (s : Inclusion) (ls ms : List Text) :
    s.readAll (ls ++ ms) = (s.readAll ls).readAll ms := List.foldl_append

/-- Where the place reached does not count, a line that opens or closes no conditional does nothing. -/
theorem read_of_not_counts {s : Inclusion} {line : Text} (h : s.counts = false)
    (hopen : ∀ name, Directive.ofLine line ≠ .ifNotDefined name)
    (hclose : Directive.ofLine line ≠ .endConditional) : s.read line = s := by
  unfold read
  split
  · next name heq => exact absurd heq (hopen name)
  · next heq => exact absurd heq hclose
  · simp [h]
  · simp [h]

end Inclusion

namespace Directive

/-- The parts of a definition, as a preprocessor meets them. -/
theorem operands_definition (r : Row) :
    operands r.definition = ("#define".toList, r.constantName ++ ' ' :: constantValue r.value) := by
  have hkeyword : ' ' ∉ "#define".toList := by decide
  have hdefine : "#define ".toList = "#define".toList ++ [' '] := rfl
  have hline : r.definition = "#define".toList ++ ' ' :: (r.constantName ++ ' ' :: constantValue r.value) := by
    unfold Row.definition
    rw [hdefine]
    generalize "#define".toList = keyword
    simp
  unfold operands
  rw [hline, cutAtSpace_append hkeyword]
  rfl

/-- A row's definition is the directive that defines the row's constant. -/
theorem ofLine_definition {r : Row} (h : ' ' ∉ r.symbol) :
    ofLine r.definition = .define r.constantName (constantValue r.value) := by
  have hoperands : operands (r.constantName ++ ' ' :: constantValue r.value) =
      (r.constantName, constantValue r.value) := by
    unfold operands
    rw [cutAtSpace_append (Row.space_not_mem_constantName h)]
    rfl
  unfold ofLine
  rw [operands_definition]
  dsimp only
  rw [if_neg (by decide), if_neg (by decide), if_pos rfl, hoperands]

end Directive

end ErrnoBindings
