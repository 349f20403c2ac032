import ErrnoBindings.Arguments.Reading

/-!
# The grammar of command lines

What a command line that makes a request looks like, said without reading it: the program's name, then *clauses* of one
or two arguments each in any order, and perhaps a double dash at the end with at most a kind behind it
(`CommandLine`). A clause gives a flag, a value for an option, the kind, or a flag and a value at once.

Not every such line makes a request. What all its clauses give together has to fit: each flag and each option at most
once, exactly one kind, no empty root and no empty listing, a listing command that is UTF-8, and not both a listing and
a command for one (`Request.MadeOf`). Nothing else matters, and the order of the clauses least of all.
-/

namespace ErrnoBindings

/-- Something that a command line gives. -/
inductive Given where
  /-- a flag -/
  | flag (f : Flag)
  /-- a value -/
  | value (s : Slot) (octets : Bytes)
  deriving DecidableEq, Repr

/-- The options that take a value, all of which have a long name. -/
inductive ValueOption where
  /-- the output root -/
  | root
  /-- the command that lists the error codes -/
  | command
  /-- a captured listing -/
  | listing
  deriving DecidableEq, Repr

namespace ValueOption

/-- What the option's value is for. -/
def slot : ValueOption → Slot
  | root => .root
  | command => .command
  | listing => .listing

/-- The option's long name. -/
def name : ValueOption → Text
  | root => "root".toList
  | command => "errno-command".toList
  | listing => "listing".toList

variable (o : ValueOption)

theorem equalsSign_notMem_name : equalsSign ∉ Utf8.encode o.name := by
  cases o <;> decide

theorem name_ne_nil : Utf8.encode o.name ≠ [] := by
  cases o <;> decide

theorem ofName?_name : Parameter.ofName? (Utf8.encode o.name) = some (.slot o.slot) := by
  cases o <;> rfl

/-- The names of what takes a value are the names of options. -/
theorem exists_name {name : Bytes} {s : Slot} (h : Parameter.ofName? name = some (.slot s)) :
    ∃ o : ValueOption, name = Utf8.encode o.name := by
  obtain ⟨n, hmem, rfl⟩ := Parameter.ofName?_eq_some_iff.mp h
  simp only [Parameter.named, List.mem_cons, Prod.mk.injEq, Parameter.slot.injEq, reduceCtorEq, and_false,
    List.not_mem_nil, or_false] at hmem
  rcases hmem with ⟨rfl, -⟩ | ⟨rfl, -⟩ | ⟨rfl, -⟩
  · exact ⟨.root, rfl⟩
  · exact ⟨.command, rfl⟩
  · exact ⟨.listing, rfl⟩

end ValueOption

/-! ## Clauses -/

/-- An argument that can stand behind an option as its value: a dash alone, or one that begins with no dash. -/
structure Operand where
  /-- the argument -/
  octets : Bytes
  /-- it is not taken for an option -/
  plain : octets = [dash] ∨ octets.head? ≠ some dash

/-- What stands behind the letter of an option in the same argument. -/
structure Attachment where
  /-- the octets behind the letter -/
  octets : Bytes
  /-- there are some -/
  ne_nil : octets ≠ []

/-- The value that is attached: all that is there, less one equals sign in front. -/
def Attachment.value (w : Attachment) : Bytes :=
  if w.octets.head? = some equalsSign then w.octets.tail else w.octets

theorem Attachment.value_eq (w : Attachment) : w.value = Reading.attached w.octets := by
  cases w with
  | mk octets ne_nil =>
    cases octets with
    | nil => exact absurd rfl ne_nil
    | cons b bs => simp [value, Reading.attached]

/-- Arguments that belong together. -/
inductive Clause where
  /-- `--verbose`, or `-v` -/
  | verbose (short : Bool)
  /-- `--timings` -/
  | timings
  /-- `--NAME=V`, with any value -/
  | joined (o : ValueOption) (value : Bytes)
  /-- `--NAME V` -/
  | apart (o : ValueOption) (value : Operand)
  /-- `-C V`, or `-vC V` -/
  | root (verbose : Bool) (value : Operand)
  /-- `-CW`, or `-vCW` -/
  | rootAttached (verbose : Bool) (value : Attachment)
  /-- a kind -/
  | kind (a : Artifact)

namespace Clause

/-- The octet of the letter for a verbose run. -/
def verboseLetter : UInt8 := 0x76

/-- The octet of the letter for the root. -/
def rootLetter : UInt8 := 0x43

/-- The letters of a short argument that gives the root, and asks for a verbose run as well or not. -/
def letters (verbose : Bool) : Bytes := if verbose then [verboseLetter, rootLetter] else [rootLetter]

/-- The flags among these letters. -/
def flags (verbose : Bool) : List Given := if verbose then [.flag .verbose] else []

/-- The arguments of a clause. -/
def arguments : Clause → List Bytes
  | verbose false => [dash :: dash :: Utf8.encode "verbose".toList]
  | verbose true => [[dash, verboseLetter]]
  | timings => [dash :: dash :: Utf8.encode "timings".toList]
  | joined o v => [dash :: dash :: Utf8.encode o.name ++ equalsSign :: v]
  | apart o v => [dash :: dash :: Utf8.encode o.name, v.octets]
  | root b v => [dash :: letters b, v.octets]
  | rootAttached b w => [dash :: letters b ++ w.octets]
  | kind a => [Utf8.encode a.letter]

/-- What a clause gives. -/
def gives : Clause → List Given
  | verbose _ => [.flag .verbose]
  | timings => [.flag .timings]
  | joined o v => [.value o.slot v]
  | apart o v => [.value o.slot v.octets]
  | root b v => flags b ++ [.value .root v.octets]
  | rootAttached b w => flags b ++ [.value .root w.value]
  | kind a => [.value .kind (Utf8.encode a.letter)]

theorem length_arguments_pos (g : Clause) : 0 < g.arguments.length := by
  cases g with
  | verbose short => cases short <;> exact Nat.zero_lt_one
  | apart o v => exact Nat.zero_lt_two
  | root b v => exact Nat.zero_lt_two
  | _ => exact Nat.zero_lt_one

end Clause

/-! ## Command lines -/

/-- How the clauses of a command line come to their end. -/
inductive Closing where
  /-- nothing stands behind them -/
  | absent
  /-- a double dash -/
  | dashes
  /-- a double dash and a kind -/
  | kind (a : Artifact)
  deriving DecidableEq, Repr

namespace Closing

/-- The arguments behind the clauses. -/
def arguments : Closing → List Bytes
  | absent => []
  | dashes => [[dash, dash]]
  | kind a => [[dash, dash], Utf8.encode a.letter]

/-- What they give. -/
def gives : Closing → List Given
  | kind a => [.value .kind (Utf8.encode a.letter)]
  | _ => []

end Closing

/-- A command line that is made of clauses. -/
structure CommandLine where
  /-- the name under which the program is called -/
  program : Bytes
  /-- the clauses, in order -/
  clauses : List Clause
  /-- what stands behind them -/
  closing : Closing

namespace CommandLine

/-- The arguments of a command line. -/
def arguments (l : CommandLine) : List Bytes :=
  l.program :: (l.clauses.flatMap Clause.arguments ++ l.closing.arguments)

/-- What a command line gives, in order. -/
def gives (l : CommandLine) : List Given := l.clauses.flatMap Clause.gives ++ l.closing.gives

end CommandLine

/-! ## What fits together -/

/-- The values that are given for one thing, in order. -/
def valuesOf (s : Slot) (gs : List Given) : List Bytes :=
  gs.filterMap fun
    | .value s' v => if s' = s then some v else none
    | _ => none

/-- The values that a request has: one kind, and at most one of everything else. -/
def Request.values (c : Request) : Slot → List Bytes
  | .kind => [Utf8.encode c.kind.letter]
  | .root => c.root.toList
  | .command => c.command.toList.map Utf8.encode
  | .listing => c.listing.toList

/-- The flags that a request has raised. No request asks for help or for the version. -/
def Request.raised (c : Request) : Flag → Bool
  | .verbose => c.verbose
  | .timings => c.timings
  | .help => false
  | .version => false

/-- The request is what the things that are given make together. -/
structure Request.MadeOf (c : Request) (gs : List Given) : Prop where
  /-- the values that are given are those of the request, and no more -/
  values : ∀ s, valuesOf s gs = c.values s
  /-- the flags that are given are those of the request, each of them once -/
  flags : ∀ f, gs.count (.flag f) = (c.raised f).toNat
  /-- the root is not empty -/
  root_ne_nil : c.root ≠ some []
  /-- the path of the listing is not empty -/
  listing_ne_nil : c.listing ≠ some []
  /-- there is no listing, or no command for one -/
  exclusive : c.listing = none ∨ c.command = none

end ErrnoBindings
