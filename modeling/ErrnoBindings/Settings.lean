import ErrnoBindings.Arguments.Basic
import ErrnoBindings.Environment
import ErrnoBindings.Fault.Basic
import ErrnoBindings.Source

/-!
# Settings

What a run does is settled by the request and by two environment variables. An option wins over its variable, and
a variable wins over the default. A variable that is set to nothing counts as not set; an option that is given an
empty command line counts as given, and makes a run that has nothing to run.
-/

namespace ErrnoBindings

/-- The output root when nothing names one: the directory in which the program runs. -/
def defaultRoot : Bytes := Utf8.encode ".".toList

/-- The listing command when nothing holds one. -/
def defaultCommand : Text := "errno -l".toList

/-- Where the settings say the table is to come from. -/
inductive SourceSetting where
  /-- a command line to run -/
  | command (line : Text)
  /-- a captured listing to read -/
  | listing (path : Bytes)
  deriving DecidableEq, Repr

/-- What a run is to do. -/
structure Settings where
  /-- the file to generate -/
  kind : Artifact
  /-- the output root -/
  root : Bytes
  /-- where the table is to come from -/
  source : SourceSetting
  /-- whether to report what is done -/
  verbose : Bool
  /-- whether to report the time that it takes -/
  timings : Bool
  deriving DecidableEq, Repr

namespace Settings

/-- The output root of a request in an environment. -/
def chooseRoot (r : Request) (env : Environment) : Bytes :=
  (r.root.or (env.value? rootVariable)).getD defaultRoot

/-- The source of a request in an environment. A captured listing needs no command. -/
def chooseSource (r : Request) (env : Environment) : SourceSetting :=
  match r.listing with
  | some path => .listing path
  | none => .command ((r.command.or ((env.value? commandVariable).map Utf8.decodeLossy)).getD defaultCommand)

/-- The settings of a request in an environment. -/
def resolve (r : Request) (env : Environment) : Settings :=
  ⟨r.kind, chooseRoot r env, chooseSource r env, r.verbose, r.timings⟩

/-- The source that the settings name. A command line without a word names none. -/
def tableSource (s : Settings) : Except Fault Source :=
  match s.source with
  | .listing path => .ok (.listing path)
  | .command line =>
    match Command.ofLine line with
    | some c => .ok (.command c)
    | none => .error (.sourceUnavailable line .emptyCommand)

/-- A listing is read exactly when the settings name it. -/
theorem tableSource_eq_listing_iff {s : Settings} {path : Bytes} :
    s.tableSource = .ok (.listing path) ↔ s.source = .listing path := by
  unfold tableSource
  split
  · next h => simp [h]
  · next line h => split <;> simp [h]

/-- A command is run exactly when it is that of a command line which the settings name. -/
theorem tableSource_eq_command_iff {s : Settings} {c : Command} :
    s.tableSource = .ok (.command c) ↔ ∃ line, s.source = .command line ∧ Command.ofLine line = some c := by
  unfold tableSource
  split
  · next h => simp [h]
  · next line h => split <;> simp_all

/-- The settings name no source exactly when their command line has no word. -/
theorem tableSource_eq_error_iff {s : Settings} {f : Fault} :
    s.tableSource = .error f ↔
      ∃ line, s.source = .command line ∧ words line = [] ∧ f = .sourceUnavailable line .emptyCommand := by
  unfold tableSource
  split
  · next h => simp [h]
  · next line h =>
    split
    · next c hc =>
      have hwords : words line ≠ [] := fun hw => by simp [Command.ofLine_eq_none_iff.2 hw] at hc
      simp [h, hwords]
    · next hc => simp [h, Command.ofLine_eq_none_iff.1 hc, eq_comm]

end Settings

end ErrnoBindings
