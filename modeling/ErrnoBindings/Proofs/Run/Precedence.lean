import ErrnoBindings.Proofs.Arguments.Given
import ErrnoBindings.Proofs.Text.Layout
import ErrnoBindings.Settings

/-!
# Where settings come from

Settings come from the command line first, then from two variables, then from defaults. This module says it the other
way round, as what the settings do *not* depend on. A request leaves some variables to be looked at (`Request.consults`)
and the settings are the same in any two environments that agree on these (`Settings.resolve_congr`). With a root on the
command line, the variable for the root is not among them; with a listing or a command for one, not even an empty one,
the variable for the command is not.

Agreeing is a matter of what variables hold once one that is set to nothing counts as not set. For this reason, and
because an empty root is no value for the option either, no root is ever empty (`Settings.chooseRoot_ne_nil`). An empty
command line, which can be given, is a different matter: it is one of those that name no source, along with all that
have nothing but blanks (`Settings.tableSource_eq_error_iff_isGap`).
-/

namespace ErrnoBindings

/-- A variable that is set to nothing holds nothing. -/
theorem Environment.value?_ne_nil (env : Environment) (name : Text) : env.value? name ≠ some [] := by
  intro h
  obtain ⟨-, hne⟩ := Option.filter_eq_some_iff.mp h
  cases hne

/-- The variables that a request leaves to be looked at. -/
def Request.consults (c : Request) : List Text :=
  (if c.root = none then [rootVariable] else []) ++
    if c.listing = none ∧ c.command = none then [commandVariable] else []

theorem Request.mem_consults {c : Request} {name : Text} :
    name ∈ c.consults ↔
      (c.root = none ∧ name = rootVariable) ∨ ((c.listing = none ∧ c.command = none) ∧ name = commandVariable) := by
  rw [consults, List.mem_append]
  split <;> split <;> simp_all

namespace Settings

variable {c : Request} {env env' : Environment}

/-- A root that is on the command line is the root. -/
theorem chooseRoot_of_some {v : Bytes} (h : c.root = some v) (env : Environment) : chooseRoot c env = v := by
  rw [chooseRoot, h]
  rfl

/-- Without one it is that of the variable, and without that the default. -/
theorem chooseRoot_of_none (h : c.root = none) (env : Environment) :
    chooseRoot c env = (env.value? rootVariable).getD defaultRoot := by
  rw [chooseRoot, h, Option.none_or]

theorem chooseSource_of_listing {path : Bytes} (h : c.listing = some path) (env : Environment) :
    chooseSource c env = .listing path := by
  rw [chooseSource, h]

/-- Where there is no listing, a command that is on the command line is the command, whatever it says. -/
theorem chooseSource_of_command {line : Text} (hlisting : c.listing = none) (h : c.command = some line)
    (env : Environment) : chooseSource c env = .command line := by
  rw [chooseSource, hlisting, h]
  rfl

/-- Without either it is that of the variable, and without that the default. -/
theorem chooseSource_of_none (hlisting : c.listing = none) (h : c.command = none) (env : Environment) :
    chooseSource c env = .command (((env.value? commandVariable).map Utf8.decodeLossy).getD defaultCommand) := by
  rw [chooseSource, hlisting, h, Option.none_or]

/-- Settings look at nothing in an environment but at what the variables hold that the request leaves to be looked
at. -/
theorem resolve_congr (h : ∀ name ∈ c.consults, env.value? name = env'.value? name) :
    resolve c env = resolve c env' := by
  have hroot : chooseRoot c env = chooseRoot c env' := by
    cases hc : c.root with
    | some v => rw [chooseRoot_of_some hc, chooseRoot_of_some hc]
    | none =>
      rw [chooseRoot_of_none hc, chooseRoot_of_none hc, h rootVariable (Request.mem_consults.mpr (Or.inl ⟨hc, rfl⟩))]
  have hsource : chooseSource c env = chooseSource c env' := by
    cases hlisting : c.listing with
    | some path => rw [chooseSource_of_listing hlisting, chooseSource_of_listing hlisting]
    | none =>
      cases hcommand : c.command with
      | some line => rw [chooseSource_of_command hlisting hcommand, chooseSource_of_command hlisting hcommand]
      | none =>
        have hmem := Request.mem_consults.mpr (Or.inr ⟨⟨hlisting, hcommand⟩, rfl⟩)
        rw [chooseSource_of_none hlisting hcommand, chooseSource_of_none hlisting hcommand, h commandVariable hmem]
  rw [resolve, resolve, hroot, hsource]

/-- With a root on the command line, the variable for the root is not looked at. -/
theorem resolve_congr_of_root {v : Bytes} (h : c.root = some v)
    (hcommand : env.value? commandVariable = env'.value? commandVariable) : resolve c env = resolve c env' := by
  refine resolve_congr fun name hname => ?_
  rcases Request.mem_consults.mp hname with ⟨hnone, -⟩ | ⟨-, rfl⟩
  · rw [h] at hnone
    cases hnone
  · exact hcommand

/-- With a listing or a command there, the variable for the command is not looked at. -/
theorem resolve_congr_of_source (h : ¬ (c.listing = none ∧ c.command = none))
    (hroot : env.value? rootVariable = env'.value? rootVariable) : resolve c env = resolve c env' := by
  refine resolve_congr fun name hname => ?_
  rcases Request.mem_consults.mp hname with ⟨-, rfl⟩ | ⟨hnone, -⟩
  · exact hroot
  · exact absurd hnone h

/-- No root is empty: not one that is given, not one that a variable holds, and not the default. -/
theorem chooseRoot_ne_nil (h : c.root ≠ some []) (env : Environment) : chooseRoot c env ≠ [] := by
  cases hc : c.root with
  | some v =>
    rw [chooseRoot_of_some hc]
    rintro rfl
    exact h hc
  | none =>
    rw [chooseRoot_of_none hc]
    cases hvalue : env.value? rootVariable with
    | none => decide
    | some v =>
      rintro rfl
      exact env.value?_ne_nil rootVariable hvalue

/-- The source is a listing exactly if one is on the command line. -/
theorem chooseSource_eq_listing_iff {path : Bytes} : chooseSource c env = .listing path ↔ c.listing = some path := by
  cases hlisting : c.listing with
  | some path' =>
    rw [chooseSource_of_listing hlisting]
    simp
  | none => simp [chooseSource, hlisting]

/-- The settings name no source exactly if they name a command line that is all blanks. -/
theorem tableSource_eq_error_iff_isGap {s : Settings} {f : Fault} :
    s.tableSource = .error f ↔
      ∃ line, s.source = .command line ∧ IsGap line ∧ f = .sourceUnavailable line .emptyCommand := by
  simp only [tableSource_eq_error_iff, words_eq_nil_iff]

/-- How the settings of some arguments depend on the environment. -/
structure Governed (args : List Bytes) (settings : Environment → Settings) : Prop where
  /-- two variables matter, and one that is set to nothing counts as not set -/
  variables_matter : ∀ env env', env.value? rootVariable = env'.value? rootVariable →
    env.value? commandVariable = env'.value? commandVariable → settings env = settings env'
  /-- a root that is given is the root, and its variable has no influence -/
  given_root : ∀ v, Gives args (.value .root v) →
    (∀ env, (settings env).root = v) ∧
      ∀ env env', env.value? commandVariable = env'.value? commandVariable → settings env = settings env'
  /-- otherwise the root is what the variable holds, or else the default -/
  other_root : (∀ v, ¬ Gives args (.value .root v)) →
    ∀ env, (settings env).root = (env.value? rootVariable).getD defaultRoot
  /-- no root is empty -/
  root_ne_nil : ∀ env, (settings env).root ≠ []
  /-- the source is a listing exactly if one is given -/
  listing_iff : ∀ env path, (settings env).source = .listing path ↔ Gives args (.value .listing path)
  /-- it has a path, and the variable for the command has no influence -/
  given_listing : ∀ path, Gives args (.value .listing path) → path ≠ [] ∧
    ∀ env env', env.value? rootVariable = env'.value? rootVariable → settings env = settings env'
  /-- a command that is given is the command, be it empty, and its variable has no influence -/
  given_command : ∀ v, Gives args (.value .command v) →
    ∃ line, v = Utf8.encode line ∧ (∀ env, (settings env).source = .command line) ∧
      ∀ env env', env.value? rootVariable = env'.value? rootVariable → settings env = settings env'
  /-- without either the command is what the variable holds, or else the default -/
  other_command : (∀ path, ¬ Gives args (.value .listing path)) → (∀ v, ¬ Gives args (.value .command v)) →
    ∀ env, (settings env).source =
      .command (((env.value? commandVariable).map Utf8.decodeLossy).getD defaultCommand)
  /-- what is read is the listing that is given, and none that is not -/
  reads_iff : ∀ env path, (settings env).tableSource = .ok (.listing path) ↔ Gives args (.value .listing path)
  /-- what is run is the command that the words of the command line make up -/
  runs_iff : ∀ env command, (settings env).tableSource = .ok (.command command) ↔
    ∃ line, (settings env).source = .command line ∧ Command.ofLine line = some command
  /-- there is no source exactly if the command line to run is all blanks, and then the fault shows it -/
  sourceless_iff : ∀ env f, (settings env).tableSource = .error f ↔
    ∃ line, (settings env).source = .command line ∧ IsGap line ∧ f = .sourceUnavailable line .emptyCommand

/-- **The command line wins over the environment, and of the environment two variables matter.** -/
theorem governed_resolve {args : List Bytes} {c : Request} (h : Request.ofArguments args = .ok c) :
    Governed args (resolve c) := by
  obtain ⟨line, rfl⟩ := CommandLine.exists_arguments_eq h
  have hmade := line.ofArguments_iff_madeOf.mp h
  exact {
    variables_matter := by
      intro env env' hroot hcommand
      refine resolve_congr fun name hname => ?_
      rcases Request.mem_consults.mp hname with ⟨-, rfl⟩ | ⟨-, rfl⟩
      · exact hroot
      · exact hcommand
    given_root := by
      intro v hv
      have hroot := (gives_root_iff h).mp hv
      exact ⟨chooseRoot_of_some hroot, fun env env' => resolve_congr_of_root hroot⟩
    other_root := by
      intro hno
      exact chooseRoot_of_none (Option.eq_none_iff_forall_ne_some.mpr fun v hv => hno v ((gives_root_iff h).mpr hv))
    root_ne_nil := chooseRoot_ne_nil hmade.root_ne_nil
    listing_iff := by
      intro env path
      rw [gives_listing_iff h]
      exact chooseSource_eq_listing_iff
    given_listing := by
      intro path hpath
      have hlisting := (gives_listing_iff h).mp hpath
      refine ⟨?_, fun env env' => resolve_congr_of_source (by simp [hlisting])⟩
      rintro rfl
      exact hmade.listing_ne_nil hlisting
    given_command := by
      intro v hv
      obtain ⟨t, ht, rfl⟩ := (gives_command_iff h).mp hv
      -- a listing and a command are not given together
      have hlisting : c.listing = none := hmade.exclusive.resolve_right (by simp [ht])
      exact ⟨t, rfl, chooseSource_of_command hlisting ht, fun env env' => resolve_congr_of_source (by simp [ht])⟩
    other_command := by
      intro hnolisting hnocommand
      refine chooseSource_of_none ?_ ?_
      · exact Option.eq_none_iff_forall_ne_some.mpr fun path hpath =>
          hnolisting path ((gives_listing_iff h).mpr hpath)
      · exact Option.eq_none_iff_forall_ne_some.mpr fun t ht => hnocommand _ ((gives_command_iff h).mpr ⟨t, ht, rfl⟩)
    reads_iff := by
      intro env path
      rw [gives_listing_iff h, tableSource_eq_listing_iff]
      exact chooseSource_eq_listing_iff
    runs_iff := fun env command => tableSource_eq_command_iff
    sourceless_iff := fun env f => tableSource_eq_error_iff_isGap }

/-- A command line with a root, and with an empty command. -/
def emptyingArguments : List Bytes :=
  ["hosterrno", "c", "-C", "out", "--errno-command="].map fun a => Utf8.encode a.toList

/-- An environment in which both variables hold something. -/
def contraryEnvironment : Environment := fun name =>
  if name = rootVariable then some (Utf8.encode "elsewhere".toList)
  else if name = commandVariable then some (Utf8.encode "cat codes".toList)
  else none

/-- The empty command wins over the one in its variable, and so there is no source. -/
theorem governed_resolve_emptied :
    ∃ c, Request.ofArguments emptyingArguments = .ok c ∧ Governed emptyingArguments (resolve c) ∧
      contraryEnvironment.value? commandVariable = some (Utf8.encode "cat codes".toList) ∧
      (∀ env, (resolve c env).root = Utf8.encode "out".toList ∧
        (resolve c env).tableSource = .error (.sourceUnavailable [] .emptyCommand)) := by
  have haccepted : Request.ofArguments emptyingArguments =
      .ok ⟨.definitions, some (Utf8.encode "out".toList), some [], none, false, false⟩ := rfl
  have hgoverned := governed_resolve haccepted
  have hroot : Gives emptyingArguments (.value .root (Utf8.encode "out".toList)) :=
    (gives_root_iff haccepted).mpr rfl
  refine ⟨_, haccepted, hgoverned, rfl, fun env => ⟨(hgoverned.given_root _ hroot).1 env, ?_⟩⟩
  exact (hgoverned.sourceless_iff env _).mpr ⟨[], rfl, nofun, rfl⟩

end Settings

end ErrnoBindings
