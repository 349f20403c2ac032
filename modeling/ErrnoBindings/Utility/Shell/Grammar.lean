import ErrnoBindings.Utility.Shell.Script

/-!
# The grammar of scripts

A script is read one unit at a time, where a unit is what has to be read before anything of it can be run: a whole
line, or as many lines as it takes to close everything that is opened in it. What stands before a mistake is
therefore run before the mistake is met (`Script.unit`).

Words have a meaning of their own only where a command can begin. The readers below take tokens off a list; each
call of one reader by another that takes no token leads to a smaller grammatical thing, so that a few times the
number of tokens is enough fuel.
-/

namespace ErrnoBindings.Utility.Shell

namespace Grammar

/-- A reader takes tokens off a list, or refuses them. -/
abbrev Reader (α : Type) := StateT (List Token) Option α

/-- Refuses the tokens. -/
def refuse {α : Type} : Reader α := fun _ => none

/-- The next token, which stays where it is. -/
def front : Reader (Option Token) := fun ts => some (ts.head?, ts)

/-- Takes the next token away. -/
def skip : Reader Unit := fun ts => some ((), ts.tail)

/-- Takes the ends of lines away. -/
def skipLines : Reader Unit := fun ts => some ((), ts.dropWhile fun t => t == .newline)

/-! ## Words with a meaning -/

/-- The words that have a meaning where a command can begin. -/
def reserved : List String :=
  ["!", "\x7b", "\x7d", "case", "do", "done", "elif", "else", "esac", "fi", "for", "if", "in", "then", "until",
    "while"]

/-- The words that end a list of commands. -/
def enders : List String := ["\x7d", "do", "done", "elif", "else", "esac", "fi", "then"]

/-- The word with a meaning that a token is. -/
def keyword? : Token → Option String
  | .word w => (w.bare?).bind fun t => reserved.find? fun k => k.toList == t
  | _ => none

/-- Whether a token ends a list of commands. -/
def ends (t : Token) : Bool :=
  t == .closing || t == .armEnd || (keyword? t).any fun k => enders.elem k

/-- The word with a meaning in front. -/
def frontKeyword : Reader (Option String) := do return (← front).bind keyword?

/-- Takes a word with a meaning. -/
def expect (k : String) : Reader Unit := do
  if (← frontKeyword) = some k then skip else refuse

/-- Takes a token. -/
def expectToken (t : Token) : Reader Unit := do
  if (← front) = some t then skip else refuse

/-- Takes a word, whatever it means elsewhere. -/
def word : Reader Word := do
  match ← front with
  | some (.word w) => do
    skip
    return w
  | _ => refuse

/-! ## Simple commands -/

/-- Takes redirections. -/
def redirections : List Token → Option (List Redirection × List Token)
  | .redirect n d :: .word w :: rest => (redirections rest).map fun found => (⟨n, d, w⟩ :: found.1, found.2)
  | .redirect _ _ :: _ => none
  | .document n body :: rest =>
    (redirections rest).map fun found => (⟨n, .document false, body⟩ :: found.1, found.2)
  | ts => some ([], ts)

/-- Takes a simple command. A word of the form of an assignment is one as long as no other word has been met. -/
def simple (begun : Bool) : List Token → Option (Simple × List Token)
  | .word w :: rest =>
    match if begun then none else w.assignment? with
    | some a =>
      (simple false rest).map fun found => ({ found.1 with assignments := a :: found.1.assignments }, found.2)
    | none => (simple true rest).map fun found => ({ found.1 with words := w :: found.1.words }, found.2)
  | .redirect n d :: .word w :: rest =>
    (simple begun rest).map fun found =>
      ({ found.1 with redirections := ⟨n, d, w⟩ :: found.1.redirections }, found.2)
  | .redirect _ _ :: _ => none
  | .document n body :: rest =>
    (simple begun rest).map fun found =>
      ({ found.1 with redirections := ⟨n, .document false, body⟩ :: found.1.redirections }, found.2)
  | ts => some (⟨[], [], []⟩, ts)

/-- The special commands, which no function can be named after. -/
def specials : List String :=
  [".", ":", "break", "continue", "eval", "exec", "exit", "export", "local", "readonly", "return", "set", "shift",
    "times", "trap", "unset"]

/-- The name of the function that is defined in front, if one is: a word and two parentheses. -/
def definition? : List Token → Option (Text × List Token)
  | .word w :: .opening :: .closing :: rest =>
    (w.bare?).bind fun name =>
      if isName name ∧ ¬ specials.any fun s => s.toList == name then some (name, rest) else none
  | _ => none

/-- The words in front. -/
def wordsInFront : List Token → List Word
  | .word w :: rest => w :: wordsInFront rest
  | _ => []

/-- Takes the words that a loop goes through, if they are given, and what may stand behind them. -/
def loopWords : Reader (Option (List Word)) := do
  skipLines
  if (← frontKeyword) = some "in" then
    skip
    let words := wordsInFront (← get)
    modify fun ts => ts.drop words.length
    match ← front with
    | some .newline => skip
    | some .semicolon => skip
    | _ => refuse
    return some words
  else
    if (← front) = some .semicolon then skip
    return none

/-- Takes the patterns of an arm, and the parenthesis behind them. -/
def patterns : Nat → Reader (List Word)
  | 0 => refuse
  | fuel + 1 => do
    let w ← word
    match ← front with
    | some .bar => do
      skip
      return w :: (← patterns fuel)
    | some .closing => do
      skip
      return [w]
    | _ => refuse

/-! ## Commands -/

mutual

/-- Takes a list of commands up to what ends it, which stays. A list may have to have a command in it. -/
def commands (required : Bool) : Nat → Reader Script
  | 0 => refuse
  | fuel + 1 => do
    skipLines
    match ← front with
    | none => refuse
    | some t =>
      if !required && ends t then return .nothing
      let first ← andOr fuel
      match ← front with
      | some .ampersand => do
        skip
        return (Script.background first).followedBy (← commands false fuel)
      | some .semicolon => do
        skip
        return first.followedBy (← commands false fuel)
      | some .newline => return first.followedBy (← commands false fuel)
      | _ => return first

/-- Takes pipelines that depend on each other. -/
def andOr : Nat → Reader Script
  | 0 => refuse
  | fuel + 1 => do chain (← pipeline fuel) fuel

/-- Takes the pipelines that depend on what has been taken. -/
def chain (first : Script) : Nat → Reader Script
  | 0 => refuse
  | fuel + 1 => do
    match ← front with
    | some .andThen => do
      skip
      skipLines
      chain (.andThen first (← pipeline fuel)) fuel
    | some .orElse => do
      skip
      skipLines
      chain (.orElse first (← pipeline fuel)) fuel
    | _ => return first

/-- Takes a pipeline, the success of which may be turned around. -/
def pipeline : Nat → Reader Script
  | 0 => refuse
  | fuel + 1 => do
    if (← frontKeyword) = some "!" then
      skip
      return .negated (← pipes fuel)
    else pipes fuel

/-- Takes commands with bars between them. -/
def pipes : Nat → Reader Script
  | 0 => refuse
  | fuel + 1 => do
    let first ← command fuel
    if (← front) = some .bar then
      skip
      skipLines
      return .pipe first (← pipes fuel)
    else return first

/-- Takes a command. -/
def command : Nat → Reader Script
  | 0 => refuse
  | fuel + 1 => do
    match ← front with
    | some .opening => do
      skip
      let s ← commands true fuel
      expectToken .closing
      return (Script.subshell s).within (← redirections)
    | some (.word _) =>
      match ← frontKeyword with
      | some k => do
        let s ← compound k fuel
        return s.within (← redirections)
      | none => do
        match definition? (← get) with
        | some (name, rest) => do
          set rest
          skipLines
          return .define name (← command fuel)
        | none => return .simple (← simple false)
    | some (.redirect _ _) => return .simple (← simple false)
    | some (.document _ _) => return .simple (← simple false)
    | _ => refuse

/-- Takes the command that a word with a meaning begins. -/
def compound (k : String) : Nat → Reader Script
  | 0 => refuse
  | fuel + 1 => do
    skip
    match k with
    | "\x7b" => do
      let s ← commands true fuel
      expect "\x7d"
      return s
    | "if" => do
      let condition ← commands true fuel
      expect "then"
      let yes ← commands true fuel
      return .choose condition yes (← otherwise fuel)
    | "while" => return .loop true (← commands true fuel) (← loopBody fuel)
    | "until" => return .loop false (← commands true fuel) (← loopBody fuel)
    | "for" => do
      match (← word).bare? with
      | some name => do
        if !isName name then refuse
        let words ← loopWords
        skipLines
        return .forEach name words (← loopBody fuel)
      | none => refuse
    | "case" => do
      let subject ← word
      skipLines
      expect "in"
      return .select subject (← arms fuel)
    | _ => refuse

/-- Takes what is done in a loop. -/
def loopBody : Nat → Reader Script
  | 0 => refuse
  | fuel + 1 => do
    expect "do"
    let body ← commands true fuel
    expect "done"
    return body

/-- Takes what is done when a condition fails, to the end of the whole. -/
def otherwise : Nat → Reader Script
  | 0 => refuse
  | fuel + 1 => do
    match ← frontKeyword with
    | some "elif" => do
      skip
      let condition ← commands true fuel
      expect "then"
      let yes ← commands true fuel
      return .choose condition yes (← otherwise fuel)
    | some "else" => do
      skip
      let no ← commands true fuel
      expect "fi"
      return no
    | some "fi" => do
      skip
      return .nothing
    | _ => refuse

/-- Takes arms to the end of the whole. -/
def arms : Nat → Reader Arms
  | 0 => refuse
  | fuel + 1 => do
    skipLines
    if (← frontKeyword) = some "esac" then
      skip
      return .none
    if (← front) = some .opening then skip
    let ps ← patterns fuel
    let body ← commands false fuel
    skipLines
    match ← front with
    | some .armEnd => do
      skip
      return .arm ps body (← arms fuel)
    | _ => do
      expect "esac"
      return .arm ps body .none

end

/-- Takes a line, or as many lines as belong together. -/
def line : Nat → Reader Script
  | 0 => refuse
  | fuel + 1 => do
    match ← front with
    | none => return .nothing
    | some .newline => do
      skip
      return .nothing
    | _ => do
      let first ← andOr fuel
      match ← front with
      | none => return first
      | some .newline => do
        skip
        return first
      | some .semicolon => do
        skip
        return first.followedBy (← line fuel)
      | some .ampersand => do
        skip
        return (Script.background first).followedBy (← line fuel)
      | _ => refuse

end Grammar

/-- The unit at the front of some tokens, and the tokens behind it; none if the tokens are no script. -/
def Script.unit (ts : List Token) : Option (Script × List Token) := Grammar.line (10 * ts.length + 10) ts

/-! ## Scripts in scripts -/

/-- Whether tokens are units one after the other. Each unit takes a token, so the number of tokens is enough
fuel. -/
def areUnits : Nat → List Token → Bool
  | _, [] => true
  | 0, _ => false
  | n + 1, ts =>
    match Script.unit ts with
    | some (_, rest) => areUnits n rest
    | none => false

/-- What is known about the scripts in a word, if they stand in each other no deeper than some depth. -/
def Inner.ofDepth : Nat → Inner
  | 0 => ⟨fun _ => false, fun _ => false⟩
  | n + 1 =>
    let tokens (t : Text) : List Token := Token.ofScript (ofDepth n) t
    let isScript (ts : List Token) : Bool := areUnits ts.length ts
    { isScript := fun t => isScript (tokens t)
      closes := fun t => (tokens (t ++ [')'])).getLast? == some .closing && isScript (tokens (t ++ [')'])).dropLast }

/-- What is known about the scripts in a word. -/
def Inner.standard : Inner := Inner.ofDepth 12

/-- The tokens of a script. -/
def Script.tokens (t : Text) : List Token := Token.ofScript .standard t

end ErrnoBindings.Utility.Shell
