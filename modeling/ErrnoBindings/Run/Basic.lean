import ErrnoBindings.Arguments.Help
import ErrnoBindings.Arguments.Reading
import ErrnoBindings.Generate
import ErrnoBindings.Run.Notice
import ErrnoBindings.Settings
import ErrnoBindings.Table.Duplicates

/-!
# A run of the program

A run takes arguments, an environment and a tree. It reads the command line, resolves the settings, and generates
one artifact. What it leaves behind is its `Outcome`: an exit status, standard output, standard error, the fault
that a final report is about, and the tree.

A command line that is refused is no fault to be reported: the usage line goes to standard output and the reason
becomes a notice. A run that generates says nothing unless it is asked to, except that repeated symbols are always
pointed out.

The report of timings names the stages that were reached. The figures behind the colons are a matter of the clock,
and no rule of this library, so the lines stop at the colon. For the same reason the version is one line, also where
`--version` would add two about the build (`Help.versionLine`).
-/

namespace ErrnoBindings

/-- What a run leaves behind. -/
structure Outcome where
  /-- the exit status -/
  status : Nat
  /-- standard output -/
  output : Text
  /-- what a command that was run left on standard error, before any notice -/
  chatter : Bytes
  /-- the notices, in order -/
  notices : List Notice
  /-- the fault that the final report on standard error is about -/
  report : Option Fault
  /-- the tree afterwards -/
  tree : Tree

namespace Outcome

/-- Standard error up to the report. -/
def errors (o : Outcome) : Text := Utf8.decodeLossy o.chatter ++ unlines (o.notices.map Notice.text)

/-- The lines on standard error that are notices, or look like them. -/
def log (o : Outcome) : List Text := markedLines o.errors

end Outcome

/-! ## Following a generation -/

/-- What is kept of a generation while it goes on. -/
structure Progress where
  /-- the notices so far -/
  notices : List Notice
  /-- whether the table was loaded -/
  loaded : Bool
  /-- whether the text was rendered -/
  rendered : Bool
  /-- whether the artifact was written -/
  written : Bool
  deriving DecidableEq, Repr

namespace Progress

/-- Nothing has been finished yet. -/
def start : Progress := ⟨[], false, false, false⟩

/-- The notices on a table that was loaded. -/
def noticesOnLoading (verbose : Bool) (source : Source) (table : Table) : List Notice :=
  (if verbose then [.read table.size source.describe] else []) ++
    table.duplicates.map fun p => .repeated p.1 p.2

/-- Takes note of a finished stage. -/
def observe (verbose : Bool) (p : Progress) : Stage → Progress
  | .loaded source table => { p with loaded := true, notices := p.notices ++ noticesOnLoading verbose source table }
  | .rendered _ => { p with rendered := true }
  | .written _ => { p with written := true }

/-- The line that frames the report of timings. -/
def rule : Text := List.replicate 16 '-'

/-- The report of timings: the stages that were reached, under a rule, and above another one if the run failed. -/
def timingLines (p : Progress) (failed : Bool) : List Text :=
  [rule, "overall time:".toList] ++
  (if p.loaded then ["loading table:".toList] else []) ++
  (if p.rendered then ["rendering:".toList] else []) ++
  (if p.written then ["writing file:".toList] else []) ++
  (if failed then [rule] else [])

end Progress

/-! ## The run -/

/-- The generation that settings ask for, followed along. Settings without a source fail before anything is
loaded. -/
def Settings.generate (s : Settings) (launch : Launcher) (tree : Tree) : Generation Progress :=
  match s.tableSource with
  | .error f => ⟨Progress.start, [], tree, .error f⟩
  | .ok source => generateWith (Progress.observe s.verbose) Progress.start launch source s.root s.kind tree

/-- The outcome of a generation that settings asked for. -/
def Settings.outcome (s : Settings) (g : Generation Progress) : Outcome :=
  let timings (failed : Bool) : Text := if s.timings then unlines (g.observed.timingLines failed) else []
  match g.result with
  | .ok path =>
    { status := 0
      output := timings false
      chatter := g.chatter
      notices := g.observed.notices ++ if s.verbose then [.wrote s.kind path] else []
      report := none
      tree := g.tree }
  | .error f =>
    { status := f.exitStatus
      output := timings true
      chatter := g.chatter
      notices := g.observed.notices
      report := some f
      tree := g.tree }

/-- Runs with settings. -/
def Settings.run (s : Settings) (launch : Launcher) (tree : Tree) : Outcome :=
  s.outcome (s.generate launch tree)

/-- The first line of a text. -/
def firstLine (t : Text) : Text := (lines t).headD []

/-- The name that the usage line shows: the first argument, whatever it is. -/
def shownName (args : List Bytes) : Text :=
  match args with
  | [] => programName
  | name :: _ => Utf8.decodeLossy name

/-- The outcome of a command line that made no request. The version is answered with its first line, whichever way it
was asked for. -/
def Stop.outcome (args : List Bytes) (tree : Tree) : Stop → Outcome
  | .help full => ⟨0, Help.text full (calledName args), [], [], none, tree⟩
  | .version => ⟨0, Help.versionLine ++ ['\n'], [], [], none, tree⟩
  | .refused r =>
    let fault := Fault.usage (shownName args)
    ⟨fault.exitStatus, fault.message ++ ['\n'], [], [.refused (firstLine r.message)], none, tree⟩

/-- Runs the program. -/
def run (launch : Launcher) (env : Environment) (args : List Bytes) (tree : Tree) : Outcome :=
  match Request.ofArguments args with
  | .error stop => stop.outcome args tree
  | .ok request => (Settings.resolve request env).run launch tree

/-! ## What a run is made of -/

/-- A run that makes no request leaves the tree as it was and reports nothing. -/
theorem run_of_stop {args : List Bytes} {stop : Stop} (h : Request.ofArguments args = .error stop)
    (launch : Launcher) (env : Environment) (tree : Tree) :
    run launch env args tree = stop.outcome args tree := by
  rw [run, h]

theorem run_of_request {args : List Bytes} {request : Request} (h : Request.ofArguments args = .ok request)
    (launch : Launcher) (env : Environment) (tree : Tree) :
    run launch env args tree = (Settings.resolve request env).run launch tree := by
  rw [run, h]

theorem Stop.outcome_tree (args : List Bytes) (tree : Tree) (stop : Stop) :
    (stop.outcome args tree).tree = tree := by
  cases stop <;> rfl

theorem Stop.outcome_report (args : List Bytes) (tree : Tree) (stop : Stop) :
    (stop.outcome args tree).report = none := by
  cases stop <;> rfl

end ErrnoBindings
