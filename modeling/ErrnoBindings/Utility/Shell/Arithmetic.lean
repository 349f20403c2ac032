import ErrnoBindings.Utility.Printf.Integer
import ErrnoBindings.Utility.Shell.Word

/-!
# Arithmetic in scripts

An arithmetic expression is a text that is read after parameters in it have been filled in. It has the operators of
C with the precedence they have there, on integers of 64 bits that wrap around, and variables, which can be
assigned to. What is not asked for is not computed, so a division by zero behind a condition that fails does no
harm.

The value of an expression is found together with the assignments that are made on the way (`Expression.value`).
-/

namespace ErrnoBindings.Utility.Shell

namespace Arithmetic

/-! ## Lexemes -/

/-- What an expression is made of. -/
inductive Lexeme where
  /-- a number -/
  | number (v : Int64)
  /-- the name of a variable -/
  | name (n : Text)
  /-- an operator or a parenthesis -/
  | operator (o : String)
  deriving DecidableEq, Repr

/-- The operators, longer ones in front of those that they begin with. -/
def operators : List String :=
  ["<<=", ">>=", "<<", ">>", "<=", ">=", "<", ">", "==", "=", "!=", "!", "&&", "&=", "&", "||", "|=", "|", "^=", "^",
    "+=", "+", "-=", "-", "*=", "*", "/=", "/", "%=", "%", "~", "(", ")", "?", ":"]

/-- The greatest magnitude that is not cut down. -/
def greatest : Nat := Nat.pow 2 63 - 1

/-- Splits an expression into lexemes; none if there is something else in it. Each step takes at least one
character. -/
def lexemes? : Nat → Text → Option (List Lexeme)
  | 0, _ => none
  | _, [] => some []
  | fuel + 1, c :: cs =>
    if c = ' ' ∨ c = '\t' ∨ c = '\n' then lexemes? fuel cs
    else if c.isDigit then
      (Printf.unsigned? (c :: cs)).bind fun found =>
        (lexemes? fuel found.2).map (.number (Int64.ofNat (min found.1 greatest)) :: ·)
    else if beginsName c then
      (lexemes? fuel (cs.dropWhile inName)).map (.name (c :: cs.takeWhile inName) :: ·)
    else
      (operators.findSome? fun o => (behind? o.toList (c :: cs)).map fun rest => (o, rest)).bind fun found =>
        (lexemes? fuel found.2).map (.operator found.1 :: ·)

/-! ## Expressions -/

/-- An expression. -/
inductive Expression where
  /-- a number -/
  | number (v : Int64)
  /-- a variable -/
  | name (n : Text)
  /-- an operator with one operand -/
  | unary (o : String) (e : Expression)
  /-- an operator with two operands -/
  | binary (o : String) (a b : Expression)
  /-- whether both are other than zero -/
  | both (a b : Expression)
  /-- whether one is other than zero -/
  | either (a b : Expression)
  /-- one of two, by whether a condition is other than zero -/
  | choose (condition a b : Expression)
  /-- an assignment, of a value or of what an operator makes of the old value and another -/
  | assign (n : Text) (o : Option String) (e : Expression)
  deriving Repr

/-- A reader takes lexemes off a list, or refuses them. -/
abbrev Reader (α : Type) := StateT (List Lexeme) Option α

/-- Takes one of some operators, if it is in front. -/
def operator? (os : List String) : Reader (Option String) := fun ls =>
  match ls with
  | .operator o :: rest => if os.elem o then some (some o, rest) else some (none, ls)
  | _ => some (none, ls)

/-- The operators with two operands, those that bind least in front. -/
def levels : List (List String) :=
  [["|"], ["^"], ["&"], ["==", "!="], ["<", "<=", ">", ">="], ["<<", ">>"], ["+", "-"], ["*", "/", "%"]]

/-- The operators of assignments, with what they make of the old value and another. -/
def assignments : List (String × Option String) :=
  [("=", none), ("+=", some "+"), ("-=", some "-"), ("*=", some "*"), ("/=", some "/"), ("%=", some "%"),
    ("<<=", some "<<"), (">>=", some ">>"), ("&=", some "&"), ("^=", some "^"), ("|=", some "|")]

/-- The assignment in front: the variable and the operator. -/
def assignment? : List Lexeme → Option (Text × Option String × List Lexeme)
  | .name n :: .operator o :: rest => (assignments.find? fun p => p.1 == o).map fun p => (n, p.2, rest)
  | _ => none

mutual

/-- Takes an expression. -/
def expression : Nat → Reader Expression
  | 0 => fun _ => none
  | fuel + 1 => do
    match assignment? (← get) with
    | some (n, o, rest) => do
      set rest
      return .assign n o (← expression fuel)
    | none => choice fuel

/-- Takes an expression that is no assignment. -/
def choice : Nat → Reader Expression
  | 0 => fun _ => none
  | fuel + 1 => do
    let condition ← disjunction fuel
    match ← operator? ["?"] with
    | none => return condition
    | some _ => do
      let a ← expression fuel
      match ← operator? [":"] with
      | none => fun _ => none
      | some _ => return .choose condition a (← choice fuel)

/-- Takes conditions one of which is to hold. -/
def disjunction : Nat → Reader Expression
  | 0 => fun _ => none
  | fuel + 1 => do
    let a ← conjunction fuel
    match ← operator? ["||"] with
    | none => return a
    | some _ => return .either a (← disjunction fuel)

/-- Takes conditions all of which are to hold. -/
def conjunction : Nat → Reader Expression
  | 0 => fun _ => none
  | fuel + 1 => do
    let a ← operation levels fuel
    match ← operator? ["&&"] with
    | none => return a
    | some _ => return .both a (← conjunction fuel)

/-- Takes an operation of some levels. -/
def operation (ls : List (List String)) : Nat → Reader Expression
  | 0 => fun _ => none
  | fuel + 1 => do
    match ls with
    | [] => operand fuel
    | os :: tighter => do operations os tighter (← operation tighter fuel) fuel

/-- Takes the operations of a level that begin with an operand. -/
def operations (os : List String) (tighter : List (List String)) (a : Expression) : Nat → Reader Expression
  | 0 => fun _ => none
  | fuel + 1 => do
    match ← operator? os with
    | none => return a
    | some o => do operations os tighter (.binary o a (← operation tighter fuel)) fuel

/-- Takes an operand with the operators in front of it. -/
def operand : Nat → Reader Expression
  | 0 => fun _ => none
  | fuel + 1 => do
    match ← operator? ["+", "-", "!", "~", "("] with
    | some "(" => do
      let e ← expression fuel
      match ← operator? [")"] with
      | none => fun _ => none
      | some _ => return e
    | some o => return .unary o (← operand fuel)
    | none => fun ls =>
      match ls with
      | .number v :: rest => some (.number v, rest)
      | .name n :: rest => some (.name n, rest)
      | _ => none

end

/-- The expression that a text is, if it is one. -/
def Expression.ofText? (t : Text) : Option Expression := do
  let ls ← lexemes? (t.length + 1) t
  let (e, rest) ← expression (20 * ls.length + 20) ls
  if rest = [] then some e else none

/-! ## Values -/

/-- A truth as a number. -/
def ofBool (b : Bool) : Int64 := if b then 1 else 0

/-- What an operator makes of a number. -/
def compute (o : String) (v : Int64) : Int64 :=
  match o with
  | "-" => -v
  | "!" => ofBool (v == 0)
  | "~" => ~~~v
  | _ => v

/-- What an operator makes of two numbers; nothing if it would divide by zero. -/
def combine? (o : String) (a b : Int64) : Option Int64 :=
  match o with
  | "|" => some (a ||| b)
  | "^" => some (a ^^^ b)
  | "&" => some (a &&& b)
  | "==" => some (ofBool (a == b))
  | "!=" => some (ofBool (a != b))
  | "<" => some (ofBool (decide (a < b)))
  | "<=" => some (ofBool (decide (a ≤ b)))
  | ">" => some (ofBool (decide (b < a)))
  | ">=" => some (ofBool (decide (b ≤ a)))
  | "<<" => some (a <<< b)
  | ">>" => some (a >>> b)
  | "+" => some (a + b)
  | "-" => some (a - b)
  | "*" => some (a * b)
  | "/" => if b = 0 then none else some (a / b)
  | "%" => if b = 0 then none else some (a % b)
  | _ => none

/-- The value of an expression, given what the variables hold, with the assignments made so far, the last one in
front. -/
def Expression.value (lookup : Text → Option Int64) : Expression → StateT (List (Text × Int64)) Option Int64
  | number v => return v
  | name n => do
    match (← get).find? fun p => p.1 == n with
    | some p => return p.2
    | none => (lookup n : Option Int64)
  | unary o e => return compute o (← value lookup e)
  | binary o a b => do
    let x ← value lookup a
    let y ← value lookup b
    (combine? o x y : Option Int64)
  | both a b => do
    if (← value lookup a) = 0 then return 0
    return ofBool ((← value lookup b) != 0)
  | either a b => do
    if (← value lookup a) ≠ 0 then return 1
    return ofBool ((← value lookup b) != 0)
  | choose condition a b => do
    if (← value lookup condition) ≠ 0 then value lookup a else value lookup b
  | assign n o e => do
    let v ← value lookup e
    let v ← match o with
      | none => pure v
      | some o => do
        let old ← value lookup (name n)
        (combine? o old v : Option Int64)
    modify ((n, v) :: ·)
    return v

/-- The number that a variable holds. Nothing but blanks is zero; anything else that is no number is none. -/
def numberOf? (t : Text) : Option Int64 :=
  match Printf.scan? t with
  | some s =>
    let r := { s with rest := s.rest.dropWhile Printf.isNumberBlank }.signed
    if r.fine then some (Int64.ofInt r.value) else none
  | none => if t.all Printf.isNumberBlank then some 0 else none

end Arithmetic

end ErrnoBindings.Utility.Shell
