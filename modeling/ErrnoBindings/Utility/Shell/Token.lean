import ErrnoBindings.Utility.Shell.Word

/-!
# Shell tokens

A script is split into tokens: words, operators, redirections, and the ends of lines. A document — lines of the
script that are to be read as a file — is announced in one line and stands behind it, so a line is split first and
its documents are taken from what follows.

A script that cannot be split, because a quote in it is not closed, has a broken token at the place where the
splitting stopped. What stands before that line is fine.
-/

namespace ErrnoBindings.Utility.Shell

/-- What a redirection does with its target. -/
inductive Direction where
  /-- reads from a file -/
  | input
  /-- writes to a file -/
  | output
  /-- adds to a file -/
  | append
  /-- reads from a file that is made if it is not there -/
  | both
  /-- does what another descriptor does -/
  | duplicate
  /-- reads a document; its lines may have tabs in front -/
  | document (tabs : Bool)
  deriving DecidableEq, Repr

/-- What a script is made of. -/
inductive Token where
  /-- a word -/
  | word (w : Word)
  /-- the end of a line -/
  | newline
  /-- a semicolon -/
  | semicolon
  /-- two semicolons -/
  | armEnd
  /-- an ampersand -/
  | ampersand
  /-- two ampersands -/
  | andThen
  /-- two bars -/
  | orElse
  /-- a bar -/
  | bar
  /-- an opening parenthesis -/
  | opening
  /-- a closing parenthesis -/
  | closing
  /-- a redirection, the target of which is the next word -/
  | redirect (descriptor : Nat) (d : Direction)
  /-- a redirection to a document -/
  | document (descriptor : Nat) (body : Word)
  /-- the place where the splitting stopped -/
  | broken
  deriving DecidableEq, Repr

namespace Token

/-- The operator at the front of a text, and what stands behind it. -/
def operator? : Text → Option (Token × Text)
  | '&' :: '&' :: rest => some (andThen, rest)
  | '&' :: rest => some (ampersand, rest)
  | '|' :: '|' :: rest => some (orElse, rest)
  | '|' :: rest => some (bar, rest)
  | ';' :: ';' :: rest => some (armEnd, rest)
  | ';' :: rest => some (semicolon, rest)
  | '(' :: rest => some (opening, rest)
  | ')' :: rest => some (closing, rest)
  | _ => none

/-- The direction at the front of a text, and what stands behind it. A descriptor may be duplicated for writing or
for reading, and is the one for writing unless another is named. -/
def direction? : Text → Option (Direction × Nat × Text)
  | '<' :: '<' :: '-' :: rest => some (.document true, 0, rest)
  | '<' :: '<' :: rest => some (.document false, 0, rest)
  | '<' :: '&' :: rest => some (.duplicate, 0, rest)
  | '<' :: '>' :: rest => some (.both, 0, rest)
  | '<' :: rest => some (.input, 0, rest)
  | '>' :: '>' :: rest => some (.append, 1, rest)
  | '>' :: '&' :: rest => some (.duplicate, 1, rest)
  | '>' :: '|' :: rest => some (.output, 1, rest)
  | '>' :: rest => some (.output, 1, rest)
  | _ => none

/-- The redirection at the front of a text, and what stands behind it. A single digit before it names its
descriptor. -/
def redirection? (t : Text) : Option (Token × Text) :=
  match t with
  | c :: rest =>
    if c.isDigit then (direction? rest).map fun found => (redirect (c.toNat - '0'.toNat) found.1, found.2.2)
    else (direction? t).map fun found => (redirect found.2.1 found.1, found.2.2)
  | [] => none

/-! ## Documents -/

/-- The lines of a document up to its last line, and what stands behind that. The end of the script ends a document
as well. -/
def takeDocument (last : Text) (tabs : Bool) : Nat → Text → Text × Text
  | 0, t => (t, [])
  | fuel + 1, t =>
    if t = [] then ([], [])
    else
      let line := (t.takeWhile fun c => c != '\n')
      let line := if tabs then line.dropWhile (· == '\t') else line
      let rest := t.dropWhile fun c => c != '\n'
      if line = last then ([], rest.drop 1)
      else
        let (body, after) := takeDocument last tabs fuel (rest.drop 1)
        (line ++ rest.take 1 ++ body, after)

/-- The token of a document. Nothing is filled in where its last line was announced with quotes. -/
def ofDocument (inner : Inner) (descriptor : Nat) (announced : Word) (body : Text) : Token :=
  if announced.hasQuotes then document descriptor [.literal body true]
  else match Word.ofText? inner .document body with
    | some w => document descriptor w
    | none => broken

/-- Takes the documents of a line from what follows it. -/
def fillDocuments (inner : Inner) : List Token → Text → List Token × Text
  | .redirect n (.document tabs) :: .word w :: rest, t =>
    let (body, after) := takeDocument w.plainText tabs (t.length + 1) t
    let (filled, after') := fillDocuments inner rest after
    (ofDocument inner n w body :: filled, after')
  | token :: rest, t =>
    let (filled, after) := fillDocuments inner rest t
    (token :: filled, after)
  | [], t => ([], t)

/-! ## Splitting -/

/-- Splits a text, given the tokens of the line that has begun, the last one in front. Each step takes at least one
character. -/
def split (inner : Inner) : Nat → List Token → Text → List Token
  | 0, line, _ => line.reverse ++ [broken]
  | fuel + 1, line, t =>
    match t with
    | [] => (fillDocuments inner line.reverse []).1
    | '\\' :: '\n' :: rest => split inner fuel line rest
    | c :: rest =>
      if c = ' ' ∨ c = '\t' then split inner fuel line rest
      else if c = '\n' then
        let (filled, after) := fillDocuments inner line.reverse rest
        filled ++ newline :: split inner fuel [] after
      else if c = '#' then split inner fuel line (t.dropWhile fun c => c != '\n')
      else match (operator? t).or (redirection? t) with
        | some (token, after) => split inner fuel (token :: line) after
        | none =>
          match readWord inner .script (t.length + 1) false t with
          | some (w, after) => split inner fuel (word w :: line) after
          | none => line.reverse ++ [broken]

/-- The tokens of a script. -/
def ofScript (inner : Inner) (script : Text) : List Token := split inner (script.length + 1) [] script

end Token

end ErrnoBindings.Utility.Shell
