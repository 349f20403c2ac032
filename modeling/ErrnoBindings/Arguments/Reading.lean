import ErrnoBindings.Arguments.Basic

/-!
# Reading a command line

Arguments are read from left to right, and the first thing that is wrong, or the first call for help or for the
version, ends the reading. One value may be *pending* while more is read: a kind or the value of an option, which
is looked at late, or the value that an option still waits for. What is pending is *settled* when the next option
or flag is met, at the next kind, and at the end. Settling is where values are checked. A value that is attached to
its option is checked at once.

An argument is one of four shapes (`Shape.of`). After a double dash everything is a kind. An argument of no
special shape is the value of a waiting option, or else a kind, and there may be only one kind.
-/

namespace ErrnoBindings

/-! ## Shapes -/

/-- The shape of an argument. -/
inductive Shape where
  /-- two dashes and nothing else -/
  | escape
  /-- two dashes and a body -/
  | long (body : Bytes)
  /-- one dash and a body that is not empty -/
  | short (body : Bytes)
  /-- anything else, a single dash included -/
  | plain
  deriving DecidableEq, Repr

/-- The octet of a dash. -/
def dash : UInt8 := 0x2D

/-- The octet between a long name and its value. -/
def equalsSign : UInt8 := 0x3D

/-- The shape of an argument. -/
def Shape.of : Bytes → Shape
  | [] => plain
  | b :: bs =>
    if b = dash then
      match bs with
      | [] => plain
      | d :: ds => if d = dash then (if ds = [] then escape else long ds) else short (d :: ds)
    else plain

theorem Shape.of_plain {a : Bytes} (h : a = [dash] ∨ a.head? ≠ some dash) : of a = plain := by
  cases a with
  | nil => rfl
  | cons b bs =>
    rcases h with h | h
    · rw [h]
      rfl
    · have hb : b ≠ dash := fun hb => h (by rw [hb, List.head?_cons])
      simp only [of, if_neg hb]

theorem Shape.of_short {b : UInt8} (hb : b ≠ dash) (bs : Bytes) : of (dash :: b :: bs) = short (b :: bs) := by
  rw [of, if_pos rfl]
  exact if_neg hb

theorem Shape.of_long {body : Bytes} (h : body ≠ []) : of (dash :: dash :: body) = long body := by
  rw [of, if_pos rfl]
  exact (if_pos rfl).trans (if_neg h)

theorem Shape.of_letter (a : Artifact) : of (Utf8.encode a.letter) = plain := by
  cases a <;> rfl

/-- What an argument of each shape looks like. -/
theorem Shape.of_cases (a : Bytes) :
    (of a = escape ∧ a = [dash, dash]) ∨ (∃ body, of a = long body ∧ a = dash :: dash :: body) ∨
      (∃ b bs, of a = short (b :: bs) ∧ a = dash :: b :: bs) ∨
      (of a = plain ∧ (a = [dash] ∨ a.head? ≠ some dash)) := by
  by_cases hplain : a = [dash] ∨ a.head? ≠ some dash
  · exact Or.inr (Or.inr (Or.inr ⟨of_plain hplain, hplain⟩))
  rw [not_or, Decidable.not_not] at hplain
  obtain ⟨hne, hhead⟩ := hplain
  obtain ⟨bs, rfl⟩ := List.head?_eq_some_iff.mp hhead
  cases bs with
  | nil => exact absurd rfl hne
  | cons b bs =>
    by_cases hb : b = dash
    · subst hb
      by_cases hbs : bs = []
      · subst hbs
        exact Or.inl ⟨rfl, rfl⟩
      · exact Or.inr (Or.inl ⟨bs, of_long hbs, rfl⟩)
    · exact Or.inr (Or.inr (Or.inl ⟨b, bs, of_short hb bs, rfl⟩))

/-- The name in the body of a long argument, and the value behind the first equals sign. -/
def splitLong : Bytes → Bytes × Option Bytes
  | [] => ([], none)
  | b :: bs => if b = equalsSign then ([], some bs) else ((b :: (splitLong bs).1), (splitLong bs).2)

theorem splitLong_of_notMem {name : Bytes} (h : equalsSign ∉ name) : splitLong name = (name, none) := by
  induction name with
  | nil => rfl
  | cons b bs ih =>
    rw [List.mem_cons, not_or] at h
    rw [splitLong, if_neg (Ne.symm h.1), ih h.2]

theorem splitLong_append {name : Bytes} (h : equalsSign ∉ name) (v : Bytes) :
    splitLong (name ++ equalsSign :: v) = (name, some v) := by
  induction name with
  | nil => rfl
  | cons b bs ih =>
    rw [List.mem_cons, not_or] at h
    rw [List.cons_append, splitLong, if_neg (Ne.symm h.1), ih h.2]

/-- A body is its name, or its name and its value with an equals sign between them. -/
theorem eq_of_splitLong {body name : Bytes} {value? : Option Bytes} (h : splitLong body = (name, value?)) :
    body = name ++ (value?.map (equalsSign :: ·)).getD [] := by
  induction body generalizing name with
  | nil =>
    cases h
    rfl
  | cons b bs ih =>
    rw [splitLong] at h
    split at h
    · next hb =>
      cases h
      rw [hb]
      rfl
    · cases h
      exact congrArg (b :: ·) (ih rfl)

/-! ## The state of a reading -/

/-- What is pending. -/
inductive Pending where
  /-- nothing -/
  | nothing
  /-- a value that has not been looked at -/
  | value (s : Slot) (value : Bytes)
  /-- an option that waits for its value -/
  | waiting (s : Slot)
  deriving DecidableEq, Repr

/-- A command line that has been read in part. -/
structure Reading where
  /-- the kind, once it is settled -/
  kind : Option Artifact
  /-- the output root -/
  root : Option Bytes
  /-- the listing command -/
  command : Option Text
  /-- the captured listing -/
  listing : Option Bytes
  /-- whether `--verbose` was met -/
  verbose : Bool
  /-- whether `--timings` was met -/
  timings : Bool
  /-- whether a listing command was there when a captured listing was given -/
  commandFirst : Bool
  /-- what is pending -/
  pending : Pending
  deriving DecidableEq, Repr

namespace Reading

/-- The state before the first argument. -/
def start : Reading := ⟨none, none, none, none, false, false, false, .nothing⟩

/-- Checks a value and puts it into its slot. -/
def assign (r : Reading) (s : Slot) (value : Bytes) : Except Stop Reading :=
  match s with
  | .kind =>
    if r.kind.isSome then .error (.refused (.repeated (.slot .kind)))
    else if value = [] then .error (.refused (.missingValue .kind))
    else match Artifact.ofLetter? value with
      | some a => .ok { r with kind := some a }
      | none => .error (.refused (.invalidKind (Utf8.decodeLossy value)))
  | .root =>
    if r.root.isSome then .error (.refused (.repeated (.slot .root)))
    else if value = [] then .error (.refused (.missingValue .root))
    else .ok { r with root := some value }
  | .listing =>
    if r.listing.isSome then .error (.refused (.repeated (.slot .listing)))
    else if value = [] then .error (.refused (.missingValue .listing))
    else .ok { r with listing := some value, commandFirst := r.command.isSome }
  | .command =>
    if r.command.isSome then .error (.refused (.repeated (.slot .command)))
    else match Utf8.decode? value with
      | some text => .ok { r with command := some text }
      | none => .error (.refused .invalidUtf8)

/-- Settles what is pending. -/
def settle (r : Reading) : Except Stop Reading :=
  match r.pending with
  | .nothing => .ok r
  | .value s value => { r with pending := .nothing }.assign s value
  | .waiting s => .error (.refused (.missingValue s))

/-- Raises a flag. -/
def raise (r : Reading) (f : Flag) (fullHelp : Bool) : Except Stop Reading :=
  match f with
  | .help => .error (.help fullHelp)
  | .version => .error .version
  | .verbose =>
    if r.verbose then .error (.refused (.repeated (.flag .verbose))) else .ok { r with verbose := true }
  | .timings =>
    if r.timings then .error (.refused (.repeated (.flag .timings))) else .ok { r with timings := true }

/-- Reads the body of a long argument. A name that nothing has, and a flag with a value, are refused before anything
is settled. -/
def readLong (r : Reading) (body : Bytes) : Except Stop Reading :=
  let (name, value?) := splitLong body
  match Parameter.ofName? name, value? with
  | none, _ => .error (.refused (.unexpectedArgument ("--".toList ++ Utf8.decodeLossy name)))
  | some (.slot s), some value => do (← r.settle).assign s value
  | some (.slot s), none => do pure { ← r.settle with pending := .waiting s }
  | some (.flag f), some value => .error (.refused (.unexpectedValue (Utf8.decodeLossy value) f))
  | some (.flag f), none => do (← r.settle).raise f true

/-- How a refused letter is shown. Where the letters stop being UTF-8, all that is left of them is shown. -/
def showLetter (letters : Bytes) : Text :=
  match Utf8.pieces none letters with
  | some c :: _ => [c]
  | _ => Utf8.decodeLossy letters

/-- The value behind the letter of an option: all that is left, less one equals sign. -/
def attached : Bytes → Bytes
  | [] => []
  | b :: bs => if b = equalsSign then bs else b :: bs

/-- Reads the letters of a short argument. The letter of the root takes what is left as its value, or waits for one
if nothing is left. -/
def readShort (r : Reading) : Bytes → Except Stop Reading
  | [] => .ok r
  | b :: rest =>
    if b = 0x43 then do
      let r ← r.settle
      if rest = [] then pure { r with pending := .waiting .root } else r.assign .root (attached rest)
    else if b = 0x76 then do readShort (← (← r.settle).raise .verbose false) rest
    else if b = 0x68 then do readShort (← (← r.settle).raise .help false) rest
    else if b = 0x56 then do readShort (← (← r.settle).raise .version false) rest
    else .error (.refused (.unexpectedArgument ('-' :: showLetter (b :: rest))))

/-- Whether a kind was met, looked at or not. -/
def kindMet (r : Reading) : Bool :=
  match r.pending with
  | .value .kind _ => true
  | _ => r.kind.isSome

/-- Reads a kind. A second one is refused before anything is settled. -/
def readKind (r : Reading) (value : Bytes) : Except Stop Reading :=
  if r.kindMet then .error (.refused (.unexpectedArgument (Utf8.decodeLossy value)))
  else do pure { ← r.settle with pending := .value .kind value }

/-- Reads an argument of no special shape. -/
def readPlain (r : Reading) (value : Bytes) : Except Stop Reading :=
  match r.pending with
  | .waiting s => .ok { r with pending := .value s value }
  | _ => r.readKind value

/-- Reads arguments. Behind a double dash (`escaped`) all of them are kinds. -/
def readAll (r : Reading) (escaped : Bool) : List Bytes → Except Stop Reading
  | [] => .ok r
  | a :: rest =>
    if escaped then do readAll (← r.readKind a) true rest
    else
      match Shape.of a with
      | .escape => readAll r true rest
      | .long body => do readAll (← r.readLong body) false rest
      | .short body => do readAll (← r.readShort body) false rest
      | .plain => do readAll (← r.readPlain a) false rest

/-- Makes the request of a command line that has been read to its end. -/
def finish (r : Reading) : Except Stop Request := do
  let r ← r.settle
  if r.listing.isSome ∧ r.command.isSome then
    if r.commandFirst then .error (.refused (.conflict .command .listing))
    else .error (.refused (.conflict .listing .command))
  else
    match r.kind with
    | none => .error (.refused .missingKind)
    | some kind => .ok ⟨kind, r.root, r.command, r.listing, r.verbose, r.timings⟩

end Reading

/-- Reads a command line, the first argument of which is the program's own name. -/
def Request.ofArguments (args : List Bytes) : Except Stop Request := do
  (← Reading.start.readAll false args.tail).finish

end ErrnoBindings
