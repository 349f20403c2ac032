import ErrnoBindings.Fault.System

/-!
# Paths

A path is what the user or the environment gives: octets, with `/` between names. It is never put into a normal
form, since messages show it as it was given. What it *means* is a sequence of steps, taken from the directory in
which the program runs: stay here, go up, go into a name. Doubled, leading and trailing separators make steps that
stay, and so does a single dot.

The system looks at the text of a path before it takes a step: a NUL in it, or too great a length, is refused at
once.
-/

namespace ErrnoBindings

/-- A step of a path. -/
inductive Step where
  /-- stay in the directory; an empty name, or a single dot -/
  | here
  /-- go to the parent; two dots -/
  | up
  /-- go to an entry of the directory -/
  | into (name : Bytes)
  deriving DecidableEq, Repr

namespace Path

/-- The octet between two names. -/
def separator : UInt8 := 0x2F

/-- The most octets that a name may have. -/
def longestName : Nat := 255

/-- The most octets that a path may have. -/
def longestPath : Nat := 4095

/-- The names between separators, empty ones included. -/
def names : Bytes → List Bytes
  | [] => [[]]
  | b :: bs =>
    if b = separator then [] :: names bs
    else match names bs with
      | [] => [[b]]
      | n :: ns => (b :: n) :: ns

/-- The step that a name stands for. -/
def stepOf : Bytes → Step
  | [] => .here
  | [0x2E] => .here
  | [0x2E, 0x2E] => .up
  | name => .into name

/-- The steps of a path. -/
def steps (path : Bytes) : List Step := (names path).map stepOf

/-- One path behind another. Nothing in front adds no separator, and neither does a path that ends in one. -/
def join (root path : Bytes) : Bytes :=
  if root = [] then path
  else if root.getLast? = some separator then root ++ path
  else root ++ separator :: path

/-- Whether the system looks at a path at all. -/
def check (path : Bytes) : Except SystemError Unit :=
  if path.elem 0 then .error .nulInPath
  else if longestPath < path.length then .error .nameTooLong
  else .ok ()

/-- The name that a path ends in. A path without a step, and one that ends by going up, has none. -/
def fileName? (path : Bytes) : Option Bytes :=
  match ((steps path).filter fun s => s != .here).getLast? with
  | some (.into name) => some name
  | _ => none

theorem names_ne_nil (path : Bytes) : names path ≠ [] := by
  fun_cases names path <;> simp_all

theorem names_cons_separator (path : Bytes) : names (separator :: path) = [] :: names path := by
  simp [names]

/-- The names of two paths with a separator between them are the names of the one and then of the other. -/
theorem names_append_separator (p q : Bytes) : names (p ++ separator :: q) = names p ++ names q := by
  induction p with
  | nil => exact names_cons_separator q
  | cons b p ih =>
    by_cases hb : b = separator
    · simp [names, hb, ih]
    · cases hp : names p with
      | nil => exact absurd hp (names_ne_nil p)
      | cons n ns => simp [names, hb, ih, hp]

theorem steps_append_separator (p q : Bytes) : steps (p ++ separator :: q) = steps p ++ steps q := by
  simp [steps, names_append_separator]

/-- What is put behind a path can be put behind it before or after a root is put in front. -/
theorem join_append (root p q : Bytes) : join root (p ++ q) = join root p ++ q := by
  rw [join, join]
  split
  · rfl
  · split <;> simp

/-- The system looks at a path when no octet of it is NUL and it is not too long. -/
theorem check_eq_ok_iff {path : Bytes} : check path = .ok () ↔ 0 ∉ path ∧ path.length ≤ longestPath := by
  by_cases hnul : 0 ∈ path
  · simp [check, hnul]
  · by_cases hlong : longestPath < path.length
    · simp [check, hnul, hlong]
    · simp [check, hnul, hlong, Nat.not_lt.mp hlong]

end Path

end ErrnoBindings
