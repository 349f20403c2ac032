import ErrnoBindings.Artifact.Basic
import ErrnoBindings.Text.Lines

/-!
# Notices

While it runs, the program says on standard error what it does and what it finds odd, one line at a time. Each
such line begins with a mark — `error`, `warning` or `note` — and everything else on standard error, a command's
own words for instance, is not a notice unless it happens to begin in the same way.
-/

namespace ErrnoBindings

/-- Something that the program says about a run. -/
inductive Notice where
  /-- the command line was refused, for a reason -/
  | refused (reason : Text)
  /-- the table was read -/
  | read (rows : Nat) (origin : Text)
  /-- a symbol stands on more than one row -/
  | repeated (symbol : Text) (count : Nat)
  /-- the artifact was written -/
  | wrote (a : Artifact) (path : Bytes)
  deriving DecidableEq, Repr

namespace Notice

/-- What errors begin with. -/
def errorMark : Text := "error: ".toList

/-- What warnings begin with. -/
def warningMark : Text := "warning: ".toList

/-- What notes begin with. -/
def noteMark : Text := "note: ".toList

/-- The marks. -/
def marks : List Text := [errorMark, warningMark, noteMark]

/-- What the notice begins with. -/
def mark : Notice → Text
  | refused .. => errorMark
  | repeated .. => warningMark
  | read .. => noteMark
  | wrote .. => noteMark

/-- What the notice says behind its mark. -/
def body : Notice → Text
  | refused reason => reason
  | read rows origin => "read ".toList ++ decimal rows ++ " rows from `".toList ++ origin ++ "`".toList
  | repeated symbol count =>
    "`".toList ++ symbol ++ "` appears ".toList ++ decimal count ++
      " times in the error table; every row is emitted and ".toList ++ strerrorFunction ++
      " returns the first description".toList
  | wrote a path => "wrote ".toList ++ a.name ++ " to ".toList ++ Utf8.decodeLossy path

/-- The notice as it is printed. -/
def text (n : Notice) : Text := n.mark ++ n.body

theorem mark_mem_marks (n : Notice) : n.mark ∈ marks := by
  cases n <;> simp [mark, marks]

end Notice

/-- Whether a line begins as notices do. -/
def isMarked (line : Text) : Bool := Notice.marks.any fun m => m.isPrefixOf line

/-- The lines of a text that begin as notices do. -/
def markedLines (t : Text) : List Text := (lines t).filter isMarked

/-- A notice begins as notices do. -/
theorem isMarked_text (n : Notice) : isMarked n.text = true :=
  List.any_eq_true.2 ⟨n.mark, n.mark_mem_marks, List.isPrefixOf_iff_prefix.2 (List.prefix_append _ _)⟩

end ErrnoBindings
