/-!
# Text and octets

Everything that this library reads or writes is one of two things.

* `Text` — a sequence of Unicode scalar values: a listing that has been decoded, a line of it, a message, a
  generated file before it is stored.
* `Bytes` — a sequence of octets: what a file holds, what a command prints, and every name that the operating
  system hands over, since such a name need not be UTF-8.

Both are plain lists, so that the readers and writers below are recursions on the data and their laws are
inductions. Lengths and offsets that a diagnostic shows are counted in the octets of the UTF-8 form
(`byteLength`), never in characters.
-/

namespace ErrnoBindings

/-- A text: a sequence of Unicode scalar values. -/
abbrev Text := List Char

/-- A sequence of octets. -/
abbrev Bytes := List UInt8

/-- The number of octets of a text's UTF-8 form. -/
def byteLength : Text → Nat
  | [] => 0
  | c :: t => c.utf8Size + byteLength t

@[simp] theorem byteLength_nil : byteLength [] = 0 := rfl

@[simp] theorem byteLength_cons (c : Char) (t : Text) :
    byteLength (c :: t) = c.utf8Size + byteLength t := rfl

@[simp] theorem byteLength_append (s t : Text) : byteLength (s ++ t) = byteLength s + byteLength t := by
  induction s with
  | nil => simp
  | cons c s ih => simp [ih, Nat.add_assoc]

/-- A text that is not empty has at least one octet. -/
theorem byteLength_pos {t : Text} (h : t ≠ []) : 0 < byteLength t := by
  cases t with
  | nil => exact absurd rfl h
  | cons c t =>
    have := c.utf8Size_pos
    simp only [byteLength_cons]
    omega

/-! ## Joining and attaching -/

/-- Words joined by single spaces. -/
def joinWords (ws : List Text) : Text := List.intercalate [' '] ws

@[simp] theorem joinWords_nil : joinWords [] = [] := rfl

@[simp] theorem joinWords_singleton (w : Text) : joinWords [w] = w := by
  simp [joinWords]

theorem joinWords_cons_cons (w v : Text) (ws : List Text) :
    joinWords (w :: v :: ws) = w ++ ' ' :: joinWords (v :: ws) := by
  simp [joinWords, List.intercalate]

/-- Puts a character in front of the first of some pieces of text; where there is no piece yet, the character
begins one. Splitters that work from the left use it to grow the piece that they are in. -/
def attach (c : Char) : List Text → List Text
  | [] => [[c]]
  | p :: ps => (c :: p) :: ps

theorem attach_ne_nil (c : Char) (ps : List Text) : attach c ps ≠ [] := by
  cases ps <;> simp [attach]

/-- Where there is a first piece, the pieces behind it are out of reach. -/
theorem attach_append (c : Char) {ps : List Text} (h : ps ≠ []) (qs : List Text) :
    attach c (ps ++ qs) = attach c ps ++ qs := by
  cases ps with
  | nil => exact absurd rfl h
  | cons p ps => rfl

theorem length_attach (c : Char) {ps : List Text} (h : ps ≠ []) : (attach c ps).length = ps.length := by
  cases ps with
  | nil => exact absurd rfl h
  | cons p ps => rfl

/-- Pieces of text as lines, each ended by a newline. -/
def unlines (ls : List Text) : Text := ls.flatMap fun l => l ++ ['\n']

@[simp] theorem unlines_cons (l : Text) (ls : List Text) : unlines (l :: ls) = l ++ '\n' :: unlines ls := by
  simp [unlines]

/-! ## Taking apart -/

/-- What stands behind a beginning, if a text begins so. -/
def behind? : Text → Text → Option Text
  | [], t => some t
  | _ :: _, [] => none
  | c :: cs, d :: ds => if c = d then behind? cs ds else none

/-- Reading behind a beginning takes apart what joining puts together, and nothing else. -/
theorem behind?_eq_some_iff {p t rest : Text} : behind? p t = some rest ↔ t = p ++ rest := by
  induction p generalizing t with
  | nil => simp [behind?, eq_comm]
  | cons c cs ih =>
    cases t with
    | nil => simp [behind?]
    | cons d ds =>
      by_cases hcd : c = d
      · simp [behind?, hcd, ih]
      · simp [behind?, hcd, Ne.symm hcd]

@[simp] theorem behind?_append (p t : Text) : behind? p (p ++ t) = some t := behind?_eq_some_iff.mpr rfl

/-- A text up to its first space, and what stands behind that space; nothing stands behind a space that there is
not. -/
def cutAtSpace : Text → Text × Option Text
  | [] => ([], none)
  | c :: cs => if c = ' ' then ([], some cs) else (c :: (cutAtSpace cs).1, (cutAtSpace cs).2)

/-- The first space is the one behind a piece without any. -/
theorem cutAtSpace_append {p : Text} (hp : ' ' ∉ p) (t : Text) : cutAtSpace (p ++ ' ' :: t) = (p, some t) := by
  induction p with
  | nil => simp [cutAtSpace]
  | cons c cs ih =>
    obtain ⟨hc, hcs⟩ := not_or.mp fun h => hp (List.mem_cons.mpr h)
    simp [cutAtSpace, Ne.symm hc, ih hcs]

/-- A text up to the first place where a separator stands, and what stands behind that separator; none if it
stands nowhere. -/
def cutAt? (separator : Text) : Text → Option (Text × Text)
  | [] => (behind? separator []).map fun rest => ([], rest)
  | c :: cs =>
    match behind? separator (c :: cs) with
    | some rest => some ([], rest)
    | none => (cutAt? separator cs).map fun p => (c :: p.1, p.2)

/-- A separator is found behind a piece that does not have its second character. The first character may stand
in the piece: where it does, the second does not follow. -/
theorem cutAt?_append {a b : Char} {q p : Text} (hab : a ≠ b) (hp : b ∉ p) (t : Text) :
    cutAt? (a :: b :: q) (p ++ (a :: b :: q ++ t)) = some (p, t) := by
  induction p with
  | nil =>
    have hbehind : behind? (a :: b :: q) (a :: b :: q ++ t) = some t := behind?_append _ _
    rw [List.nil_append, List.cons_append, cutAt?]
    rw [List.cons_append] at hbehind
    rw [hbehind]
  | cons c p ih =>
    obtain ⟨-, hp⟩ := not_or.mp fun h => hp (List.mem_cons.mpr h)
    have hbehind : behind? (a :: b :: q) (c :: (p ++ (a :: b :: q ++ t))) = none := by
      by_cases hac : a = c
      · cases p with
        | nil => simp [behind?, hac, Ne.symm (hac ▸ hab)]
        | cons d p =>
          have hbd : b ≠ d := fun h => hp (h ▸ List.mem_cons_self ..)
          simp [behind?, hac, hbd]
      · simp [behind?, hac]
    rw [List.cons_append, cutAt?, hbehind]
    dsimp only
    rw [ih hp]
    rfl

end ErrnoBindings
