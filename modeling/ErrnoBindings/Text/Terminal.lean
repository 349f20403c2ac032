import ErrnoBindings.Text.Basic

/-!
# What a terminal would show

A message quotes what the user gave, and that may hold characters that a terminal takes as orders instead of
showing them: control characters, and the *sequences* that an escape character opens. They are left out of
messages, so that no argument can move the cursor or change a title.

A small machine reads a text one character at a time (`Terminal.step`). Between sequences it shows what can be
seen; within one it shows nothing, and its state says which characters end the sequence. Blanks among the control
characters are kept: they are shown between sequences, and they cut short a sequence whose end is not fixed by a
terminator of its own. A sequence that the text does not end is not shown at all.

What is left has nothing a terminal would act on (`visible_of_mem_plain`), and a text without such characters is
left as it is (`plain_eq_self`).
-/

namespace ErrnoBindings.Terminal

/-- Whether a control character is one of the blanks that are kept. -/
def isKeptBlank (c : Char) : Bool := c == '\t' || c == '\n' || c == '\x0c' || c == '\r'

/-- Whether a terminal shows a character, or sets a blank for it. -/
def isVisible (c : Char) : Bool :=
  isKeptBlank c || decide (0x20 ≤ c.toNat ∧ c.toNat ≤ 0x7E) || decide (0x80 ≤ c.toNat)

/-- Where the machine stands. -/
inductive State where
  /-- between sequences -/
  | between
  /-- behind an escape character -/
  | escape
  /-- in a short sequence, which the next character that is neither a blank nor a mark ends -/
  | short
  /-- in a control sequence, which its first letter ends -/
  | control
  /-- in a title, which a bell ends -/
  | title
  /-- at the head of a passage for a device -/
  | opening
  /-- among the parameters of that head -/
  | parameters
  /-- among the marks behind them -/
  | marks
  /-- in such a passage, which a terminator ends -/
  | passage
  deriving DecidableEq, Repr

/-- What a character opens behind an escape character. -/
def opened (c : Char) : State :=
  if 0x20 ≤ c.toNat ∧ c.toNat ≤ 0x2F then .short
  else if c = '[' then .control
  else if c = ']' then .title
  else if c = 'P' then .opening
  else if c = 'X' ∨ c = '^' ∨ c = '_' then .passage
  else if 0x30 ≤ c.toNat ∧ c.toNat ≤ 0x7E then .between
  else .escape

/-- Where a character leads at the head of a passage for a device. A letter begins the passage, and so does a mark
or a digit that is out of place; no head holds a character past the visible ones of one octet. -/
def behindHead (s : State) (c : Char) : State :=
  let n := c.toNat
  if 0x20 ≤ n ∧ n ≤ 0x2F then .marks
  else if s ≠ .marks ∧ (c.isDigit ∨ c = ';' ∨ s = .opening ∧ 0x3C ≤ n ∧ n ≤ 0x3F) then .parameters
  else if 0x30 ≤ n ∧ n ≤ 0x7E then .passage
  else s

/-- Whether a character ends a passage for a device: the terminator is the octet `9C`, wherever it stands in a
character's UTF-8 form. -/
def endsPassage (c : Char) : Bool := (String.utf8EncodeChar c).elem 0x9C

/-- Reads a character in a state: whether it is shown, and the next state. Two control characters break off any
sequence, and an escape character opens another. -/
def step (s : State) (c : Char) : Bool × State :=
  if c = '\x18' ∨ c = '\x1a' then (false, .between)
  else if c = '\x1b' then (false, .escape)
  else
    match s with
    | .between => (isVisible c, .between)
    | .escape => if isKeptBlank c then (true, .between) else (false, opened c)
    | .short =>
      if isKeptBlank c then (true, .between)
      else if 0x30 ≤ c.toNat ∧ c.toNat ≤ 0x7E then (false, .between) else (false, .short)
    | .control =>
      if isKeptBlank c then (true, .between)
      else if 0x40 ≤ c.toNat ∧ c.toNat ≤ 0x7E then (false, .between) else (false, .control)
    | .title => if c = '\x07' then (false, .between) else (false, .title)
    | .opening | .parameters | .marks => (false, behindHead s c)
    | .passage => (false, if endsPassage c then .between else .passage)

/-- What is shown of a text, read from a state. -/
def plainFrom : State → Text → Text
  | _, [] => []
  | s, c :: cs => if (step s c).1 then c :: plainFrom (step s c).2 cs else plainFrom (step s c).2 cs

/-- What is shown of a text. -/
def plain (t : Text) : Text := plainFrom .between t

/-! ## What is left -/

theorem isVisible_of_isKeptBlank {c : Char} (h : isKeptBlank c = true) : isVisible c = true := by
  simp [isVisible, h]

/-- The machine shows only what can be seen. -/
theorem isVisible_of_step {s : State} {c : Char} (h : (step s c).1 = true) : isVisible c = true := by
  unfold step at h
  split at h
  · cases h
  split at h
  · cases h
  cases s with
  | between => exact h
  | escape =>
    dsimp only at h
    split at h
    · next hb => exact isVisible_of_isKeptBlank hb
    · cases h
  | short =>
    dsimp only at h
    split at h
    · next hb => exact isVisible_of_isKeptBlank hb
    · split at h <;> cases h
  | control =>
    dsimp only at h
    split at h
    · next hb => exact isVisible_of_isKeptBlank hb
    · split at h <;> cases h
  | title =>
    dsimp only at h
    split at h <;> cases h
  | opening | parameters | marks | passage => cases h

theorem visible_of_mem_plainFrom {s : State} {t : Text} {c : Char} (h : c ∈ plainFrom s t) :
    isVisible c = true := by
  induction t generalizing s with
  | nil => cases h
  | cons d t ih =>
    rw [plainFrom] at h
    split at h
    · next hd =>
      rcases List.mem_cons.mp h with rfl | h
      · exact isVisible_of_step hd
      · exact ih h
    · exact ih h

/-- Nothing is left that a terminal would act on. -/
theorem visible_of_mem_plain {t : Text} {c : Char} (h : c ∈ plain t) : isVisible c = true :=
  visible_of_mem_plainFrom h

/-- A character that can be seen is shown between sequences, and opens none. -/
theorem step_of_isVisible {c : Char} (h : isVisible c = true) : step .between c = (true, .between) := by
  have hcancel : ¬ (c = '\x18' ∨ c = '\x1a') := by
    rintro (rfl | rfl) <;> exact absurd h (by decide)
  have hescape : c ≠ '\x1b' := by
    rintro rfl
    exact absurd h (by decide)
  rw [step, if_neg hcancel, if_neg hescape]
  simp [h]

/-- A text that can be seen as it is stays as it is. -/
theorem plain_eq_self {t : Text} (h : ∀ c ∈ t, isVisible c = true) : plain t = t := by
  unfold plain
  induction t with
  | nil => rfl
  | cons c t ih =>
    rw [plainFrom, step_of_isVisible (h c List.mem_cons_self), if_pos rfl,
      ih fun d hd => h d (List.mem_cons_of_mem _ hd)]

/-- Showing what is shown changes nothing. -/
theorem plain_plain (t : Text) : plain (plain t) = plain t :=
  plain_eq_self fun _ h => visible_of_mem_plain h

end ErrnoBindings.Terminal
