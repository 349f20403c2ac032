import ErrnoBindings.Artifact.Basic
import ErrnoBindings.Text.Terminal
import ErrnoBindings.Text.Utf8

/-!
# What a command line can say

The program takes one argument without a name, the *kind* of file to generate, three options that take a value,
and four flags. This module names them, the request that an accepted command line makes, and the ways in which one
is refused.

Reading a command line may also stop early without a refusal, because help or the version was asked for.
-/

namespace ErrnoBindings

/-- What takes a value on a command line. -/
inductive Slot where
  /-- the kind of file, which has no name of its own -/
  | kind
  /-- the output root -/
  | root
  /-- the command that lists the error codes -/
  | command
  /-- a captured listing -/
  | listing
  deriving DecidableEq, Repr

/-- What takes no value. -/
inductive Flag where
  /-- report what is done -/
  | verbose
  /-- report the time that it takes -/
  | timings
  /-- show help -/
  | help
  /-- show the version -/
  | version
  deriving DecidableEq, Repr

/-- Anything that a command line can give. -/
inductive Parameter where
  /-- something with a value -/
  | slot (s : Slot)
  /-- something without one -/
  | flag (f : Flag)
  deriving DecidableEq, Repr

/-- How a parameter is shown in messages. -/
def Parameter.display : Parameter → Text
  | slot .kind => "<KIND>".toList
  | slot .root => "--root <ROOT>".toList
  | slot .command => "--errno-command <CMD>".toList
  | slot .listing => "--listing <FILE>".toList
  | flag .verbose => "--verbose".toList
  | flag .timings => "--timings".toList
  | flag .help => "--help".toList
  | flag .version => "--version".toList

/-- The parameters with a long name. -/
def Parameter.named : List (String × Parameter) :=
  [("root", .slot .root), ("errno-command", .slot .command), ("listing", .slot .listing),
    ("verbose", .flag .verbose), ("timings", .flag .timings), ("help", .flag .help), ("version", .flag .version)]

/-- The parameter with a long name. There are no abbreviations. -/
def Parameter.ofName? (name : Bytes) : Option Parameter :=
  (named.find? fun p => Utf8.encode p.1.toList == name).map Prod.snd

/-- The long names are spelled as they are in the table of names, and there are no others. -/
theorem Parameter.ofName?_eq_some_iff {name : Bytes} {p : Parameter} :
    ofName? name = some p ↔ ∃ n, (n, p) ∈ named ∧ Utf8.encode n.toList = name := by
  constructor
  · intro h
    obtain ⟨⟨n, q⟩, hfind, rfl⟩ := Option.map_eq_some_iff.mp h
    exact ⟨n, List.mem_of_find?_eq_some hfind, by simpa using List.find?_some hfind⟩
  · rintro ⟨n, hmem, rfl⟩
    simp only [named, List.mem_cons, Prod.mk.injEq, List.not_mem_nil, or_false] at hmem
    rcases hmem with ⟨rfl, rfl⟩ | ⟨rfl, rfl⟩ | ⟨rfl, rfl⟩ | ⟨rfl, rfl⟩ | ⟨rfl, rfl⟩ | ⟨rfl, rfl⟩ | ⟨rfl, rfl⟩ <;> rfl

/-- The letter of the kind on the command line. -/
def Artifact.letter : Artifact → Text
  | .declarations => "h".toList
  | .definitions => "c".toList

/-- The kind that a value names. -/
def Artifact.ofLetter? (value : Bytes) : Option Artifact :=
  if value = Utf8.encode (letter .declarations) then some .declarations
  else if value = Utf8.encode (letter .definitions) then some .definitions
  else none

/-- A value names a kind exactly if it is the kind's letter. -/
theorem Artifact.ofLetter?_eq_some_iff {v : Bytes} {a : Artifact} :
    ofLetter? v = some a ↔ v = Utf8.encode a.letter := by
  constructor
  · intro h
    unfold ofLetter? at h
    split at h
    · cases h
      assumption
    · split at h
      · cases h
        assumption
      · cases h
  · rintro rfl
    cases a <;> rfl

@[simp] theorem Artifact.ofLetter?_letter (a : Artifact) : ofLetter? (Utf8.encode a.letter) = some a :=
  ofLetter?_eq_some_iff.mpr rfl

theorem Artifact.letter_injective {a b : Artifact} (h : Utf8.encode a.letter = Utf8.encode b.letter) : a = b := by
  have hread := Artifact.ofLetter?_letter a
  rw [h, Artifact.ofLetter?_letter] at hread
  exact (Option.some.inj hread).symm

/-- What an accepted command line asks for. -/
structure Request where
  /-- the file to generate -/
  kind : Artifact
  /-- the output root, if given -/
  root : Option Bytes
  /-- the listing command, if given -/
  command : Option Text
  /-- the captured listing, if given -/
  listing : Option Bytes
  /-- whether to report what is done -/
  verbose : Bool
  /-- whether to report the time that it takes -/
  timings : Bool
  deriving DecidableEq, Repr

/-- Why a command line is refused. -/
inductive Refusal where
  /-- an argument that nothing expects -/
  | unexpectedArgument (shown : Text)
  /-- a kind other than the two -/
  | invalidKind (value : Text)
  /-- a parameter that wants a value, or one that is not empty, has none -/
  | missingValue (s : Slot)
  /-- a flag was given a value -/
  | unexpectedValue (value : Text) (f : Flag)
  /-- a parameter was given more than once -/
  | repeated (p : Parameter)
  /-- two parameters that exclude each other were given, in this order -/
  | conflict (first second : Slot)
  /-- no kind was given -/
  | missingKind
  /-- a value that has to be UTF-8 is not -/
  | invalidUtf8
  deriving DecidableEq, Repr

/-- The refusal in words. What the user gave is quoted as a terminal would show it. -/
def Refusal.message : Refusal → Text
  | unexpectedArgument shown => "unexpected argument '".toList ++ Terminal.plain shown ++ "' found".toList
  | invalidKind value =>
    "invalid value '".toList ++ Terminal.plain value ++ "' for '".toList ++ (Parameter.slot .kind).display ++ "'".toList
  | missingValue s =>
    "a value is required for '".toList ++ (Parameter.slot s).display ++ "' but none was supplied".toList
  | unexpectedValue value f =>
    "unexpected value '".toList ++ Terminal.plain value ++ "' for '".toList ++ (Parameter.flag f).display ++
      "' found; no more were expected".toList
  | repeated p => "the argument '".toList ++ p.display ++ "' cannot be used multiple times".toList
  | conflict first second =>
    "the argument '".toList ++ (Parameter.slot first).display ++ "' cannot be used with '".toList ++
      (Parameter.slot second).display ++ "'".toList
  | missingKind => "the following required arguments were not provided:".toList
  | invalidUtf8 => "invalid UTF-8 was detected in one or more arguments".toList

/-- Why the reading of a command line stopped without a request. -/
inductive Stop where
  /-- help was asked for, in full or in short -/
  | help (full : Bool)
  /-- the version was asked for -/
  | version
  /-- the command line was refused -/
  | refused (r : Refusal)
  deriving DecidableEq, Repr

end ErrnoBindings
