import ErrnoBindings.Run.Basic
import ErrnoBindings.Tree.Walk

/-!
# The program as a script

A run of this library takes a tree and leaves one behind. A program has no tree in its hands: it calls the system,
looks at the answer, and goes on. A `Script` is such a program, with the calls that it makes and with what it does
about every answer. `Script.run` is the script of this one.

A script is plain data, and whoever can answer calls can play it. A tree can (`Script.onTree`): it answers each call
from what stands in it. What the script of the program then comes to is the run of the library. A system can as well,
and nothing is left to be decided there.

What a script comes to says nothing of the tree that is left, since nobody tells the script. It answers with an outcome
for whatever tree that is.
-/

namespace ErrnoBindings

/-- What a command that was run has come to, apart from what it did to the tree. -/
structure Transcript where
  /-- how it ended -/
  ending : Ending
  /-- what it printed -/
  output : Bytes
  /-- what it printed on standard error -/
  errors : Bytes
  deriving DecidableEq, Repr

/-- What a program asks of the system, with the kind of answer that it is given. -/
inductive Call : Type → Type where
  /-- what the regular file at a path holds -/
  | read (path : Bytes) : Call (Except Reason Bytes)
  /-- that a command is run to its end -/
  | start (c : Command) : Call (Except Reason Transcript)
  /-- that the directory at a path is made, with the directories on the way to it -/
  | makeDirectories (path : Bytes) : Call (Except Reason Unit)
  /-- that a regular file is written in the directory at a path -/
  | write (dir name contents : Bytes) : Call (Except Reason Unit)
  /-- that a regular file in the directory at a path gets another name -/
  | rename (dir old new : Bytes) : Call (Except Reason Unit)
  /-- that a regular file, if there is one, is taken away from the directory at a path -/
  | unlink (dir name : Bytes) : Call Unit

/-- A program that calls the system. -/
inductive Script (α : Type) : Type 1 where
  /-- it has come to something -/
  | done (a : α)
  /-- it makes a call, and goes on with the answer -/
  | call {β : Type} (c : Call β) (next : β → Script α)

namespace Script

variable {α β σ : Type}

/-- One script after another, which goes on with what the first has come to. -/
protected def bind : Script α → (α → Script β) → Script β
  | done a, f => f a
  | call c next, f => call c fun answer => (next answer).bind f

instance : Monad Script where
  pure := done
  bind := Script.bind

/-- A single call. -/
def ask (c : Call α) : Script α := call c done

/-! ## The script of the program -/

/-- Writes a file under a staging name and renames it. If either is refused, what may have been staged is unlinked
and the refusal stands. -/
def publish (dir staged name contents : Bytes) : Script (Except Reason Unit) := do
  match ← ask (.write dir staged contents) with
  | .error r => withdraw r
  | .ok () =>
    match ← ask (.rename dir staged name) with
    | .error r => withdraw r
    | .ok () => return .ok ()
where
  withdraw (r : Reason) : Script (Except Reason Unit) := do
    ask (.unlink dir staged)
    return .error r

/-- Writes an artifact under a root, and answers with the path that was written. -/
def write (a : Artifact) (root : Bytes) (contents : Text) : Script (Except Fault Bytes) := do
  match ← ask (.makeDirectories (a.parentPath root)) with
  | .error r => return .error (.destinationUnwritable (a.destination root) r)
  | .ok () =>
    let staged := Utf8.encode a.stagingName
    match ← publish (a.parentPath root) staged (Utf8.encode a.fileName) (Utf8.encode contents) with
    | .error r => return .error (.destinationUnwritable (a.destination root) r)
    | .ok () => return .ok (a.destination root)

/-- Asks a source for its table, and answers with it and with what a command left on standard error. -/
def consult : Source → Script (Except Fault Table × Bytes)
  | .table t => return (.ok t, [])
  | .listing path => do
    let origin := (Source.listing path).describe
    match ← ask (.read path) with
    | .error r => return (.error (.sourceUnavailable origin r), [])
    | .ok octets => return (Table.ofOctets origin .listingNotUtf8 octets, [])
  | .command c => do
    match ← ask (.start c) with
    | .error r => return (.error (.sourceUnavailable c.describe r), [])
    | .ok e =>
      if e.ending.succeeded then return (Table.ofOctets c.describe .outputNotUtf8 e.output, e.errors)
      else return (.error (.sourceUnavailable c.describe (.commandFailed e.ending)), e.errors)

/-- Loads, renders and writes, and tells an observer of each finished stage. -/
def generateWith (observe : σ → Stage → σ) (start : σ) (source : Source) (root : Bytes) (a : Artifact) :
    Script (Tree → Generation σ) := do
  let (loaded, chatter) ← consult source
  match loaded with
  | .error f => return fun tree => ⟨start, chatter, tree, .error f⟩
  | .ok table =>
    let rendered := observe (observe start (.loaded source table)) (.rendered (a.render table))
    match ← write a root (a.render table) with
    | .error f => return fun tree => ⟨rendered, chatter, tree, .error f⟩
    | .ok path => return fun tree => ⟨observe rendered (.written path), chatter, tree, .ok path⟩

/-- Generates what settings ask for. -/
def generate (s : Settings) : Script (Tree → Generation Progress) :=
  match s.tableSource with
  | .error f => return fun tree => ⟨Progress.start, [], tree, .error f⟩
  | .ok source => generateWith (Progress.observe s.verbose) Progress.start source s.root s.kind

/-- Runs the program. -/
def run (env : Environment) (args : List Bytes) : Script (Tree → Outcome) :=
  match Request.ofArguments args with
  | .error stop => return fun tree => stop.outcome args tree
  | .ok request => do
    let generation ← generate (Settings.resolve request env)
    return fun tree => (Settings.resolve request env).outcome (generation tree)

end Script

/-! ## A tree that answers -/

/-- Does something in the directory at a path, to an entry that it has or is to have. The system looks for the entry
by its whole path. -/
def Tree.atEntry (t : Tree) (dir name : Bytes) (act : Location → Tree × Except SystemError Unit) :
    Tree × Except SystemError Unit :=
  match t.locate (dir ++ Path.separator :: name) with
  | .error e => (t, .error e)
  | .ok l => act l.dropLast

/-- An answer with what the system refuses for as the reason. -/
def Reason.ofAnswer {α : Type} : Except SystemError α → Except Reason α
  | .ok a => .ok a
  | .error e => .error (.system e)

@[simp] theorem Reason.ofAnswer_ok {α : Type} (a : α) : ofAnswer (.ok a) = .ok a := rfl

@[simp] theorem Reason.ofAnswer_error {α : Type} (e : SystemError) :
    ofAnswer (.error e : Except SystemError α) = .error (system e) := rfl

/-- What a tree answers to a call, and the tree afterwards. -/
def Call.onTree {α : Type} (launch : Launcher) (t : Tree) : Call α → Tree × α
  | read path => (t, Reason.ofAnswer (t.readFile path))
  | start c =>
    match launch t c with
    | .refused e => (t, .error (.system e))
    | .ran e => (e.tree, .ok ⟨e.ending, e.output, e.errors⟩)
  | makeDirectories path =>
    match t.makeDirectories path with
    | (t', .error e) => (t', .error (.system e))
    | (t', .ok _) => (t', .ok ())
  | write dir name contents =>
    let written := t.atEntry dir name fun l => t.writeEntry l name contents
    (written.1, Reason.ofAnswer written.2)
  | rename dir old new =>
    let renamed := t.atEntry dir old fun _ => t.atEntry dir new fun l => t.renameEntry l old new
    (renamed.1, Reason.ofAnswer renamed.2)
  | unlink dir name => ((t.atEntry dir name fun l => (t.unlinkEntry l name, .ok ())).1, ())

/-- Plays a script on a tree: the tree afterwards, and what the script has come to. -/
def Script.onTree {α : Type} (launch : Launcher) : Script α → Tree → Tree × α
  | done a, t => (t, a)
  | call c next, t => (next (c.onTree launch t).2).onTree launch (c.onTree launch t).1

end ErrnoBindings
