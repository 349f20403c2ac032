import ErrnoBindings.Text.Basic

/-!
# Words of a shell script

A word is a list of parts: text that stands for itself, and the three things that are filled in when the word is
used — a parameter, what a command prints, and the value of an arithmetic expression. Each part knows whether it was
quoted, since what is filled in without quotes is split into fields later on.

A word is read off the front of a text (`readWord`). What is filled in has an end of its own, which may stand
behind quotes and other things to be filled in, so it is found first (`enclosed`) and kept as text. A command ends at
the first parenthesis in front of which there is a whole script; what a script is, is known further on only, so the
reader is told (`Inner`). The same reader serves for the other places where parts are looked for: the operand of a
parameter, and a document.
-/

namespace ErrnoBindings.Utility.Shell

/-! ## Parts -/

/-- How the value of a parameter is used. Where a colon stands, a parameter that is empty counts as not set. The
operands are words that are read when they are needed. -/
inductive Use where
  /-- the value itself -/
  | value
  /-- its length -/
  | length
  /-- the value, or the operand where it is not set -/
  | otherwise (colon : Bool) (operand : Text)
  /-- the same, and the parameter is set to the operand -/
  | assign (colon : Bool) (operand : Text)
  /-- the value, or the end of the script where it is not set -/
  | insist (colon : Bool) (operand : Text)
  /-- the operand, where the parameter is set -/
  | instead (colon : Bool) (operand : Text)
  /-- the value without what a pattern matches at its end or at its front -/
  | without (atEnd longest : Bool) (pattern : Text)
  /-- nothing that is known -/
  | bad
  deriving DecidableEq, Repr

/-- A part of a word. -/
inductive Part where
  /-- text that stands for itself; when it is quoted and empty, it makes a field of its own -/
  | literal (t : Text) (quoted : Bool)
  /-- a parameter -/
  | parameter (name : Text) (use : Use) (quoted : Bool)
  /-- what the commands of a script print -/
  | command (script : Text) (quoted : Bool)
  /-- the value of an arithmetic expression -/
  | arithmetic (expression : Text) (quoted : Bool)
  deriving DecidableEq, Repr

/-- A word. -/
abbrev Word := List Part

/-- Where parts are looked for. -/
inductive Place where
  /-- in a script, where a word ends at a blank or an operator -/
  | script
  /-- in the operand of a parameter -/
  | operand
  /-- in the operand of a parameter between double quotes -/
  | quotedOperand
  /-- in a document -/
  | document
  deriving DecidableEq, Repr

/-- What is known about the scripts in a word. -/
structure Inner where
  /-- whether a text is a script -/
  isScript : Text → Bool
  /-- whether a closing parenthesis behind a text would stand behind a script -/
  closes : Text → Bool

/-! ## Enclosures -/

/-- What is open at some place. -/
inductive Opening where
  /-- single quotes -/
  | single
  /-- double quotes -/
  | double
  /-- quotes that run a command -/
  | back
  /-- parentheses -/
  | parens
  /-- the braces of a parameter, between double quotes or not -/
  | braces (quoted : Bool)
  deriving DecidableEq, Repr

/-- What is known while the end of an enclosure is looked for. -/
structure Scanner where
  /-- what is open, the innermost in front -/
  openings : List Opening
  /-- whether a backslash stands before -/
  escaped : Bool
  /-- whether a dollar sign stands before -/
  dollar : Bool
  deriving DecidableEq, Repr

namespace Scanner

/-- What a character opens, if anything. -/
def opens? (s : Scanner) (o : Opening) (c : Char) : Option Opening :=
  match o with
  | .single => none
  | .back => none
  | .double =>
    if c = '\x60' then some .back
    else if s.dollar && c == '(' then some .parens
    else if s.dollar && c == '\x7b' then some (.braces true)
    else none
  | .parens =>
    if c = '\x60' then some .back
    else if c = '\x27' then some .single
    else if c = '"' then some .double
    else if c = '(' then some .parens
    else if s.dollar && c == '\x7b' then some (.braces false)
    else none
  | .braces quoted =>
    if c = '\x60' then some .back
    else if !quoted && c == '\x27' then some .single
    else if c = '"' then some .double
    else if s.dollar && c == '(' then some .parens
    else if s.dollar && c == '\x7b' then some (.braces quoted)
    else none

/-- The character that closes what is open. -/
def closer : Opening → Char
  | .single => '\x27'
  | .double => '"'
  | .back => '\x60'
  | .parens => ')'
  | .braces _ => '\x7d'

/-- Takes a character. -/
def take (s : Scanner) (c : Char) : Scanner :=
  match s.openings with
  | [] => s
  | o :: outer =>
    if s.escaped then ⟨s.openings, false, false⟩
    else if c = '\\' ∧ o ≠ .single then ⟨s.openings, true, false⟩
    else if c = closer o then ⟨outer, false, false⟩
    else match s.opens? o c with
      | some inner => ⟨inner :: s.openings, false, false⟩
      | none => ⟨s.openings, false, c == '$'⟩

end Scanner

/-- What stands before the end of everything that is open, and what stands behind it; none if the text ends
first. -/
def enclosed (s : Scanner) : Text → Option (Text × Text)
  | [] => none
  | c :: cs =>
    let s' := s.take c
    if s'.openings = [] then some ([], cs)
    else (enclosed s' cs).map fun found => (c :: found.1, found.2)

/-- The same with these things open at the start. -/
def behind (openings : List Opening) (t : Text) : Option (Text × Text) := enclosed ⟨openings, false, false⟩ t

/-! ## Parameters -/

/-- Whether a character can begin a name. -/
def beginsName (c : Char) : Bool := c.isAlpha || c == '_'

/-- Whether a character can stand in a name. -/
def inName (c : Char) : Bool := c.isAlphanum || c == '_'

/-- Whether a text is a name. -/
def isName : Text → Bool
  | [] => false
  | c :: cs => beginsName c && cs.all inName

/-- The parameters that are one character, neither a letter nor a digit. -/
def isSpecialParameter (c : Char) : Bool := "@*#?$!-".toList.elem c

/-- The name at the front of a text, and what stands behind it: digits, a name, or one special character. -/
def splitParameter : Text → Text × Text
  | [] => ([], [])
  | c :: cs =>
    if c.isDigit then ((c :: cs).takeWhile Char.isDigit, (c :: cs).dropWhile Char.isDigit)
    else if beginsName c then ((c :: cs).takeWhile inName, (c :: cs).dropWhile inName)
    else if isSpecialParameter c then ([c], cs)
    else ([], c :: cs)

/-- The use that stands behind the name of a parameter. -/
def Use.ofText : Text → Use
  | [] => value
  | ':' :: '-' :: w => otherwise true w
  | ':' :: '=' :: w => assign true w
  | ':' :: '?' :: w => insist true w
  | ':' :: '+' :: w => instead true w
  | '-' :: w => otherwise false w
  | '=' :: w => assign false w
  | '?' :: w => insist false w
  | '+' :: w => instead false w
  | '%' :: '%' :: w => without true true w
  | '%' :: w => without true false w
  | '#' :: '#' :: w => without false true w
  | '#' :: w => without false false w
  | _ => bad

/-- The parameter between braces, with its use. A number sign before a whole name asks for a length. -/
def bracedParameter (inside : Text) : Text × Use :=
  match inside with
  | '#' :: c :: cs =>
    match splitParameter (c :: cs) with
    | (name, []) => if name = [] then (['#'], .bad) else (name, .length)
    | _ => (['#'], Use.ofText (c :: cs))
  | _ =>
    let (name, rest) := splitParameter inside
    if name = [] then ([], .bad) else (name, Use.ofText rest)

/-! ## Reading -/

/-- The characters that end a word in a script. -/
def isMeta (c : Char) : Bool := " \t\n;&|<>()".toList.elem c

/-- The characters that lose their meaning behind a backslash between double quotes. -/
def Place.escapes : Place → Text
  | script => "$\x60\"\\".toList
  | operand => "$\x60\"\\".toList
  | quotedOperand => "$\x60\"\\\x7d".toList
  | document => "$\x60\\".toList

/-- A script between quotes that run a command, without the backslashes that were needed there. -/
def unescapeBack (quoted : Bool) : Text → Text
  | '\\' :: c :: cs =>
    if "$\x60\\".toList.elem c || (quoted && c == '"') then c :: unescapeBack quoted cs
    else '\\' :: c :: unescapeBack quoted cs
  | c :: cs => c :: unescapeBack quoted cs
  | [] => []

/-- Puts a part in front of a word; neighbouring literals become one. -/
def Word.cons (p : Part) (w : Word) : Word :=
  match p, w with
  | .literal s q, .literal t r :: rest => if q = r then .literal (s ++ t) q :: rest else p :: w
  | _, _ => p :: w

/-- The script up to its closing parenthesis, and what stands behind that, given what stands before, the last
character in front. -/
def scriptBefore (inner : Inner) (before : Text) : Text → Option (Text × Text)
  | [] => none
  | c :: cs =>
    if c = ')' ∧ inner.closes before.reverse = true then some (before.reverse, cs)
    else scriptBefore inner (c :: before) cs

/-- Reads what stands behind a dollar sign: a part, and the rest. A dollar sign that begins nothing stands for
itself. -/
def readDollar (inner : Inner) (quoted : Bool) (t : Text) : Option (Part × Text) :=
  match t with
  | '(' :: '(' :: rest =>
    (behind [.parens, .parens] rest).bind fun found =>
      if found.1.getLast? = some ')' then some (.arithmetic found.1.dropLast quoted, found.2) else none
  | '(' :: rest => (scriptBefore inner [] rest).map fun found => (.command found.1 quoted, found.2)
  | c :: rest =>
    if c = '\x7b' then
      (behind [.braces quoted] rest).map fun found =>
        let (name, use) := bracedParameter found.1
        (.parameter name use quoted, found.2)
    else if c.isDigit || isSpecialParameter c then some (.parameter [c] .value quoted, rest)
    else if beginsName c then
      some (.parameter (t.takeWhile inName) .value quoted, t.dropWhile inName)
    else some (.literal ['$'] quoted, t)
  | [] => some (.literal ['$'] quoted, [])

/-- Reads a word off the front of a text, and gives the rest; none if quotes or braces are not closed. `quoted` says
whether double quotes are open. Each step takes at least one character, so the length of the text is enough
fuel. -/
def readWord (inner : Inner) (place : Place) : Nat → Bool → Text → Option (Word × Text)
  | 0, _, _ => none
  | fuel + 1, quoted, t =>
    let goOn (p : Part) (quoted : Bool) (rest : Text) : Option (Word × Text) :=
      (readWord inner place fuel quoted rest).map fun found => (Word.cons p found.1, found.2)
    match t with
    | [] => if quoted ∧ place = .script then none else some ([], [])
    | '\\' :: '\n' :: rest => readWord inner place fuel quoted rest
    | '\\' :: c :: rest =>
      if quoted && !place.escapes.elem c then goOn (.literal ['\\', c] true) quoted rest
      else goOn (.literal [c] true) quoted rest
    | '$' :: rest => (readDollar inner quoted rest).bind fun found => goOn found.1 quoted found.2
    | c :: rest =>
      if c = '\x60' then
        (behind [.back] rest).bind fun found =>
          let script := unescapeBack quoted found.1
          if inner.isScript script then goOn (.command script quoted) quoted found.2 else none
      else if c = '"' ∧ place ≠ .document then
        if place = .quotedOperand then readWord inner place fuel quoted rest
        else if quoted then readWord inner place fuel false rest
        else if rest.head? = some '"' then goOn (.literal [] true) false (rest.drop 1)
        else readWord inner place fuel true rest
      else if quoted then goOn (.literal [c] true) quoted rest
      else if c = '\x27' then
        (behind [.single] rest).bind fun found => goOn (.literal found.1 true) quoted found.2
      else if place = .script ∧ isMeta c then some ([], t)
      else goOn (.literal [c] false) quoted rest

/-- Reads a whole text as a word. -/
def Word.ofText? (inner : Inner) (place : Place) (t : Text) : Option Word :=
  (readWord inner place (t.length + 1) (decide (place = .quotedOperand ∨ place = .document)) t).map Prod.fst

namespace Word

/-- The text of a word that has nothing but unquoted text in it. -/
def bare? : Word → Option Text
  | [.literal t false] => some t
  | _ => none

/-- The text of a word that has nothing to be filled in. -/
def plainText (w : Word) : Text :=
  w.flatMap fun p => match p with
    | .literal t _ => t
    | _ => []

/-- Whether anything in a word is quoted. -/
def hasQuotes (w : Word) : Bool :=
  w.any fun p => match p with
    | .literal _ quoted => quoted
    | _ => false

/-- The name and the value, if a word is an assignment. -/
def assignment? (w : Word) : Option (Text × Word) :=
  match w with
  | .literal t false :: rest =>
    let name := t.takeWhile fun c => c != '='
    match t.dropWhile fun c => c != '=' with
    | _ :: value =>
      if isName name then some (name, if value = [] then rest else .literal value false :: rest) else none
    | [] => none
  | _ => none

end Word

end ErrnoBindings.Utility.Shell
