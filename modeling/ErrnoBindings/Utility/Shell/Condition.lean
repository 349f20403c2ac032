import ErrnoBindings.Tree.Basic
import ErrnoBindings.Utility.Printf.Integer

/-!
# Conditions

The command `test` finds out whether a condition holds. A condition is given by words, and it depends on where a
word stands whether it is an operator or an operand: a word that could be an operator with one operand is an operand
itself where nothing stands behind it, or where an operator with two operands does.

A condition that cannot be read, or compares what is no number, has no answer.
-/

namespace ErrnoBindings.Utility.Shell

namespace Condition

/-- What a word is, should it be an operator. -/
inductive Operator where
  /-- an operator with one operand -/
  | unary (letter : Char)
  /-- an operator with two operands -/
  | binary (name : Text)
  /-- the negation -/
  | negation
  /-- both are to hold -/
  | conjunction
  /-- one is to hold -/
  | disjunction
  /-- an opening parenthesis -/
  | opening
  /-- a closing parenthesis -/
  | closing
  deriving DecidableEq, Repr

/-- What a place among the words is. -/
inductive Place where
  /-- the place behind the last word -/
  | finished
  /-- an operand -/
  | operand
  /-- an operator -/
  | operator (o : Operator)
  deriving DecidableEq, Repr

/-- The operators with two operands. -/
def comparisons : List String :=
  ["=", "!=", "<", ">", "-eq", "-ne", "-ge", "-gt", "-le", "-lt", "-nt", "-ot", "-ef"]

/-- The operators with one operand, by letter. -/
def letters : Text := "rwxefdcbpugkstznhLOGS".toList

/-- The operator that a word could be. -/
def operator? (w : Text) : Option Operator :=
  if comparisons.any fun c => c.toList == w then some (.binary w)
  else match w with
    | ['!'] => some .negation
    | ['('] => some .opening
    | [')'] => some .closing
    | ['-', 'a'] => some .conjunction
    | ['-', 'o'] => some .disjunction
    | ['-', c] => if letters.elem c then some (.unary c) else none
    | _ => none

/-- Whether a word is an operator with two operands. -/
def isComparison (w : Text) : Bool :=
  match operator? w with
  | some (.binary _) => true
  | _ => false

/-- What the first of some words is. -/
def place : List Text → Place
  | [] => .finished
  | w :: rest =>
    match operator? w with
    | none => .operand
    | some (.unary c) =>
      match rest with
      | [] => .operand
      | [_] => .operator (.unary c)
      | next :: _ :: _ => if isComparison next then .operand else .operator (.unary c)
    | some .opening => if rest = [] then .operand else .operator .opening
    | some o => .operator o

/-- What stands at a path, as far as conditions look at it. -/
inductive Sighting where
  /-- a file or a directory, and where it stands -/
  | node (l : Location) (n : Node)
  /-- the null device -/
  | device
  deriving DecidableEq, Repr

/-- Looks at what stands at a path. -/
abbrev Sight := Text → Option Sighting

/-- Whether a file is as a letter wants it. Everybody may do everything with every file but run it, and nothing is
known about times and owners. -/
def holds (see : Sight) (letter : Char) (operand : Text) : Bool :=
  match letter with
  | 'z' => operand.isEmpty
  | 'n' => !operand.isEmpty
  | _ =>
    match see operand with
    | none => false
    | some .device => "rwecOG".toList.elem letter
    | some (.node _ .directory) => "rwxedsOG".toList.elem letter
    | some (.node _ (.file contents)) => "rwefOG".toList.elem letter || (letter == 's' && !contents.isEmpty)

/-- A whole operand as a number. -/
def number? (t : Text) : Option Int :=
  let digits := match t.dropWhile Printf.isNumberBlank with
    | '-' :: ds => ds
    | '+' :: ds => ds
    | ds => ds
  let negative := (t.dropWhile Printf.isNumberBlank).head? = some '-'
  match Printf.magnitude? Printf.decimalDigit? 10 digits with
  | none => none
  | some (n, rest) =>
    let v : Int := if negative then -n else n
    let limit : Nat := Nat.pow 2 63
    if rest.all Printf.isNumberBlank ∧ -(limit : Int) ≤ v ∧ v < limit then some v else none

/-- Compares two operands. -/
def compare? (see : Sight) (name a b : Text) : Option Bool :=
  let numbers (test : Int → Int → Bool) : Option Bool := do
    let x ← number? a
    let y ← number? b
    return test x y
  match String.ofList name with
  | "=" => some (a == b)
  | "!=" => some (a != b)
  | "<" => some (decide (a < b))
  | ">" => some (decide (b < a))
  | "-eq" => numbers fun x y => x == y
  | "-ne" => numbers fun x y => x != y
  | "-ge" => numbers fun x y => decide (y ≤ x)
  | "-gt" => numbers fun x y => decide (y < x)
  | "-le" => numbers fun x y => decide (x ≤ y)
  | "-lt" => numbers fun x y => decide (x < y)
  | "-ef" => some ((see a).isSome && see a == see b)
  | _ => some false

/-- The part of the words that is left once something has been read. Its first word is the last one read. -/
abbrev Left := List Text

mutual

/-- Whether one of some conditions holds. -/
def disjunction (see : Sight) : Nat → Place → Left → Option (Bool × Left)
  | 0, _, _ => none
  | fuel + 1, p, ws => do
    let (a, left) ← conjunction see fuel p ws
    if place left.tail = .operator .disjunction then
      let (b, left) ← disjunction see fuel (place (left.drop 2)) (left.drop 2)
      return (a || b, left)
    else return (a, left)

/-- Whether all of some conditions hold. -/
def conjunction (see : Sight) : Nat → Place → Left → Option (Bool × Left)
  | 0, _, _ => none
  | fuel + 1, p, ws => do
    let (a, left) ← negation see fuel p ws
    if place left.tail = .operator .conjunction then
      let (b, left) ← conjunction see fuel (place (left.drop 2)) (left.drop 2)
      return (a && b, left)
    else return (a, left)

/-- Whether a condition holds that may be turned around. -/
def negation (see : Sight) : Nat → Place → Left → Option (Bool × Left)
  | 0, _, _ => none
  | fuel + 1, p, ws => do
    if p = .operator .negation then
      let p' := place ws.tail
      let (a, left) ← negation see fuel p' (if p' = .finished then ws else ws.tail)
      return (!a, left)
    else primary see fuel p ws

/-- Whether a single condition holds. -/
def primary (see : Sight) : Nat → Place → Left → Option (Bool × Left)
  | 0, _, _ => none
  | fuel + 1, p, ws => do
    match p with
    | .finished => return (false, ws)
    | .operator .opening => do
      let p' := place ws.tail
      if p' = .operator .closing then return (false, ws.tail)
      let (a, left) ← disjunction see fuel p' ws.tail
      if place left.tail = .operator .closing then return (a, left.tail) else none
    | .operator (.unary letter) => do
      match ws.tail with
      | [] => none
      | operand :: _ =>
        if letter = 't' ∧ (number? operand).isNone then none else return (holds see letter operand, ws.tail)
    | _ => do
      match place ws.tail with
      | .operator (.binary name) =>
        match ws with
        | a :: _ :: b :: rest => return (← compare? see name a b, b :: rest)
        | _ => none
      | _ => return (!(ws.headD []).isEmpty, ws)

end

/-- Whether the words are a condition that holds; none if they are no condition. -/
def read (see : Sight) (p : Place) (ws : List Text) : Option Bool :=
  match disjunction see (4 * ws.length + 8) p ws with
  | some (a, left) => if left.length ≤ 1 then some a else none
  | none => none

/-- Whether a condition holds. With up to four words, a negation or parentheses around the rest come before
everything else, but an operator with two operands between two words comes before them. -/
def answer (see : Sight) : List Text → Option Bool
  | [] => some false
  | [a, o, b] =>
    if isComparison o then read see .operand [a, o, b]
    else if a = ['('] ∧ b = [')'] then read see (place [o]) [o]
    else if a = ['!'] then (answer see [o, b]).map (!·)
    else read see (place [a, o, b]) [a, o, b]
  | [a, b, c, d] =>
    if a = ['('] ∧ d = [')'] then read see (place [b, c]) [b, c]
    else if a = ['!'] then (answer see [b, c, d]).map (!·)
    else read see (place [a, b, c, d]) [a, b, c, d]
  | ws => read see (place ws) ws

/-- The status of the command: zero if the condition holds, one if not, two if there is none. As `[` it wants a
closing bracket at the end. -/
def status (see : Sight) (bracket : Bool) (args : List Text) : Nat :=
  let ofAnswer : Option Bool → Nat
    | some true => 0
    | some false => 1
    | none => 2
  if !bracket then ofAnswer (answer see args)
  else if (args.getLastD []).head? = some ']' then ofAnswer (answer see args.dropLast)
  else 2

end Condition

end ErrnoBindings.Utility.Shell
