import ErrnoBindings.Utility.Escape

/-!
# Echo

`echo` prints its arguments with single spaces between them and a newline behind. As a program it takes options:
leading arguments made of a dash and the letters `n`, `e`, `E`, which take the newline away and turn escapes on and
off; and it describes itself when asked to by its only argument. In the shell it reads escapes always, and `-n` in
the first place is the only option.

No escape goes on across a space, so the arguments can be joined before escapes are read.
-/

namespace ErrnoBindings.Utility

/-- Arguments with single spaces between them, and a newline behind unless it is unwanted or an escape ended
everything. -/
def echoText (newline : Bool) (escapes : Option Escape.Dialect) (args : List Text) : Text :=
  match escapes with
  | none => joinWords args ++ if newline then ['\n'] else []
  | some d =>
    let (t, close) := Escape.read d (joinWords args)
    t ++ if newline ∧ close = .atEnd then ['\n'] else []

/-- Whether an argument is made of option letters. -/
def isEchoOption : Text → Bool
  | '-' :: c :: cs => (c :: cs).all fun x => x == 'n' || x == 'e' || x == 'E'
  | _ => false

/-- Whether escapes are read after some option letters. The last letter on the matter decides. -/
def echoEscapes (before : Bool) (letters : Text) : Bool :=
  letters.foldl (fun b c => if c = 'e' then true else if c = 'E' then false else b) before

/-- Reads options off the front of the arguments, and prints the rest. -/
def echoFrom (newline escapes : Bool) : List Text → Text
  | [] => echoText newline none []
  | a :: rest =>
    if isEchoOption a then echoFrom (newline && !a.elem 'n') (echoEscapes escapes a) rest
    else echoText newline (if escapes then some Escape.echoing else none) (a :: rest)

/-- The program, under the name by which it was called. -/
def echo (called : Text) (args : List Text) : Finish :=
  match selfDescription? called "echo".toList " [SHORT-OPTION]... [STRING]...".toList args with
  | some description => .print 0 description
  | none => .print 0 (echoFrom true false args)

/-- The shell's own. -/
def shellEcho (args : List Text) : Text :=
  match args with
  | ['-', 'n'] :: rest => echoText false (some Escape.shellEchoing) rest
  | _ => echoText true (some Escape.shellEchoing) args

end ErrnoBindings.Utility
