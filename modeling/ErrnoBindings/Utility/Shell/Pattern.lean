import ErrnoBindings.Text.Basic

/-!
# Patterns

A pattern is made of characters, some of which were quoted and stand for themselves. Among the others, an asterisk
stands for any text, a question mark for any character, and brackets for a character in some ranges or outside of
them. A pattern is first taken apart (`Pattern.ofMarked`), after which matching is a recursion on its pieces.
-/

namespace ErrnoBindings.Utility.Shell

namespace Pattern

/-- A piece of a pattern. -/
inductive Piece where
  /-- a character that stands for itself -/
  | one (c : Char)
  /-- any character -/
  | any
  /-- any text -/
  | many
  /-- a character in some ranges, or in none of them -/
  | set (within : Bool) (ranges : List (Char × Char))
  deriving DecidableEq, Repr

/-- The ranges of a class of characters. -/
def ranges? (name : Text) : Option (List (Char × Char)) :=
  let lower := ('a', 'z')
  let upper := ('A', 'Z')
  let digits := ('0', '9')
  let signs := [('!', '/'), (':', '@'), ('[', '\x60'), ('\x7b', '~')]
  (([("alpha", [upper, lower]), ("digit", [digits]), ("alnum", [digits, upper, lower]), ("lower", [lower]),
    ("upper", [upper]), ("space", [('\t', '\r'), (' ', ' ')]), ("blank", [('\t', '\t'), (' ', ' ')]),
    ("punct", signs), ("print", [(' ', '~')]), ("graph", [('!', '~')]),
    ("cntrl", [(Char.ofNat 0, '\x1f'), ('\x7f', '\x7f')]),
    ("xdigit", [digits, ('A', 'F'), ('a', 'f')])] : List (String × List (Char × Char))).find? fun p =>
      p.1.toList == name).map Prod.snd

/-- The name of a class behind a bracket and a colon, and what stands behind it. -/
def className? : List (Char × Bool) → Option (Text × List (Char × Bool))
  | (':', _) :: (']', _) :: rest => some ([], rest)
  | (c, _) :: rest => if c.isAlpha then (className? rest).map fun found => (c :: found.1, found.2) else none
  | [] => none

/-- The ranges of a set up to its closing bracket, and what stands behind that. A bracket in the first place is a
character of the set. -/
def rangesOf (first : Bool) : Nat → List (Char × Bool) → Option (List (Char × Char) × List (Char × Bool))
  | 0, _ => none
  | _, [] => none
  | n + 1, (c, quoted) :: rest =>
    if c = ']' ∧ quoted = false ∧ first = false then some ([], rest)
    else
      let inClass := match c, quoted, rest with
        | '[', false, (':', false) :: behind =>
          (className? behind).bind fun found => (ranges? found.1).map fun rs => (rs, found.2)
        | _, _, _ => none
      match inClass, rest with
      | some (rs, behind), _ => (rangesOf false n behind).map fun found => (rs ++ found.1, found.2)
      | none, ('-', false) :: (d, endQuoted) :: behind =>
        if d = ']' ∧ endQuoted = false then (rangesOf false n rest).map fun found => ((c, c) :: found.1, found.2)
        else (rangesOf false n behind).map fun found => ((c, d) :: found.1, found.2)
      | none, _ => (rangesOf false n rest).map fun found => ((c, c) :: found.1, found.2)

/-- The set behind an opening bracket, and what stands behind it. -/
def set? : List (Char × Bool) → Option (Piece × List (Char × Bool))
  | (c, false) :: rest =>
    if c = '!' ∨ c = '^' then (rangesOf true (rest.length + 1) rest).map fun found => (.set false found.1, found.2)
    else (rangesOf true (rest.length + 2) ((c, false) :: rest)).map fun found => (.set true found.1, found.2)
  | marked => (rangesOf true (marked.length + 1) marked).map fun found => (.set true found.1, found.2)

/-- The pieces of a pattern. Each piece takes at least one character, so the length is enough fuel. -/
def pieces : Nat → List (Char × Bool) → List Piece
  | 0, _ => []
  | _, [] => []
  | n + 1, (c, quoted) :: rest =>
    if quoted then .one c :: pieces n rest
    else match c with
      | '*' => .many :: pieces n rest
      | '?' => .any :: pieces n rest
      | '[' =>
        match set? rest with
        | some (s, behind) => s :: pieces n behind
        | none => .one c :: pieces n rest
      | '\\' =>
        match rest with
        | (d, _) :: behind => .one d :: pieces n behind
        | [] => [.one c]
      | _ => .one c :: pieces n rest

/-- The pieces of a pattern. -/
def ofMarked (marked : List (Char × Bool)) : List Piece := pieces marked.length marked

/-- Whether a character is one that a piece stands for. -/
def Piece.accepts : Piece → Char → Bool
  | one c, d => c == d
  | any, _ => true
  | many, _ => true
  | set within ranges, d => (ranges.any fun r => decide (r.1 ≤ d ∧ d ≤ r.2)) == within

/-- The ends of a text, the longest first. -/
def endings : Text → List Text
  | [] => [[]]
  | c :: cs => (c :: cs) :: endings cs

/-- The texts that are left when a text that a piece stands for is taken off the front of a text, longest first. -/
def Piece.rests (p : Piece) (t : Text) : List Text :=
  match p, t with
  | many, t => endings t
  | _, [] => []
  | p, d :: t => if p.accepts d then [t] else []

/-- Whether a whole text matches a pattern. -/
def accepts : List Piece → Text → Bool
  | [], t => t.isEmpty
  | p :: ps, t => (p.rests t).any (accepts ps)

/-- Whether anything in a pattern is special. -/
def isSpecial (marked : List (Char × Bool)) : Bool := marked.any fun p => !p.2 && "*?[".toList.elem p.1

end Pattern

end ErrnoBindings.Utility.Shell
