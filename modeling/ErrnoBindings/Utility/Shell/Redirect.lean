import ErrnoBindings.Utility.Shell.Expansion

/-!
# Redirecting

A redirection makes a descriptor lead to another stream: to a file, to what another descriptor leads to, or to a
document. What the targets of redirections come to is found out before any of them is made; when one of them fails,
those before it have been made, and it is left to the caller to put descriptors back.
-/

namespace ErrnoBindings.Utility.Shell

namespace Redirection

/-- What a redirection leads to. -/
inductive Target where
  /-- the file at a path -/
  | path (t : Text)
  /-- what a descriptor leads to -/
  | descriptor (n : Nat)
  /-- nowhere -/
  | nowhere
  /-- a document -/
  | document (contents : Text)
  deriving DecidableEq, Repr

/-- Finds out what a redirection leads to. A descriptor is a single digit, and a dash is none. -/
def resolve (run : Expansion.Runner) (r : Redirection) : Act (Nat × Direction × Target) := do
  let t ← Expansion.text run r.target
  match r.direction with
  | .document _ => return (r.descriptor, r.direction, .document t)
  | .duplicate =>
    match t with
    | ['-'] => return (r.descriptor, r.direction, .nowhere)
    | [c] =>
      if c.isDigit then return (r.descriptor, r.direction, .descriptor (c.toNat - '0'.toNat))
      else throw .fault
    | _ => throw .fault
  | _ => return (r.descriptor, r.direction, .path t)

/-- The descriptor that a path stands for. -/
def named? (path : Text) : Option Nat :=
  match String.ofList path with
  | "/dev/stdin" => some 0
  | "/dev/stdout" => some 1
  | "/dev/stderr" => some 2
  | _ =>
    match (behind? "/dev/fd/".toList path).or (behind? "/proc/self/fd/".toList path) with
    | some [c] => if c.isDigit then some (c.toNat - '0'.toNat) else none
    | _ => none

/-- Opens the file at a path: the stream, or none if that is not possible. A directory can be opened and not be
read. -/
def openPath (d : Direction) (path : Text) : Act (Option Nat) := do
  let m ← get
  let p := m.process
  let stream (medium : Medium) : Stream :=
    ⟨medium, d == .input || d == .both, d != .input, d == .append⟩
  let add (medium : Medium) : Act (Option Nat) := do return some (← Act.newStream (stream medium))
  let make (keep : Bool) : Act (Option Nat) :=
    match Files.write? m.tree p.directory path [] keep with
    | none => return none
    | some (tree, l) => do
      modify fun m => { m with tree }
      add (.file l 0)
  match named? path with
  | some n => return p.stream? n
  | none =>
    if path = Files.nullDevice then add .null
    else match d with
      | .input =>
        match Files.locate m.tree p.directory path, Files.get? m.tree p.directory path with
        | .ok l, some (.file _) => add (.file l 0)
        | .ok _, some .directory => return some (← Act.newStream ⟨.null, false, false, false⟩)
        | _, _ => return none
      | .output => make false
      | _ => make true

/-- Connects a descriptor to a stream, if there is one. -/
def connectTo (descriptor : Nat) : Option Nat → Act Bool
  | none => return false
  | some n => do
    Act.update fun p => p.connect descriptor (some n)
    return true

/-- Makes a redirection, and says whether that was possible. -/
def make (descriptor : Nat) (d : Direction) : Target → Act Bool
  | .nowhere => do
    Act.update fun p => p.connect descriptor none
    return true
  | .document contents => do
    let n ← Act.newStream ⟨.pipe contents, true, false, false⟩
    Act.update fun p => p.connect descriptor (some n)
    return true
  | .descriptor n => do connectTo descriptor ((← Act.process).stream? n)
  | .path t => do connectTo descriptor (← openPath d t)

/-- Makes redirections up to the first that is not possible. -/
def makeAll : List (Nat × Direction × Target) → Act Bool
  | [] => return true
  | (n, d, t) :: rest => do
    if ← make n d t then makeAll rest else return false

/-- Makes redirections, and says whether that was possible. -/
def apply (run : Expansion.Runner) (rs : List Redirection) : Act Bool := do
  makeAll (← rs.mapM (resolve run))

end Redirection

end ErrnoBindings.Utility.Shell
