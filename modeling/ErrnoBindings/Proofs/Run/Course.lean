import ErrnoBindings.Proofs.Arguments.Given
import ErrnoBindings.Proofs.Run.Stages
import ErrnoBindings.Proofs.Run.Status

/-!
# The course of a run

A run with settings ends in one of three ways: its table does not load, its artifact cannot be written, or it is
written. For each of them this module says what all of the outcome is (`Settings.run_of_unloaded`,
`Settings.run_of_unwritten`, `Settings.run_of_written`), so that whatever is asked of a run can be read off its end.
Nothing is assumed of the commands that are run. What they say and what they do to the tree is part of asking for the
table (`Settings.loading`).

The flags that only observe have no part in how a run ends, and none in anything that it leaves behind but in what it
says (`Settings.run_observed`).
-/

namespace ErrnoBindings

section

variable {args : List Bytes} {env : Environment} {s : Settings}

/-- The settings of accepted arguments are verbose if the arguments give the flag for it. -/
theorem Accepts.verbose_iff (h : Accepts args env s) : Gives args (.flag .verbose) ↔ s.verbose = true := by
  obtain ⟨c, hc, rfl⟩ := h
  exact gives_flag_iff hc

/-- So they have timings if the arguments give that flag. -/
theorem Accepts.timings_iff (h : Accepts args env s) : Gives args (.flag .timings) ↔ s.timings = true := by
  obtain ⟨c, hc, rfl⟩ := h
  exact gives_flag_iff hc

end

namespace Settings

variable {s : Settings} {launch : Launcher} {tree : Tree}

/-- What comes of asking the source of the settings for its table. If they name none, nobody is asked. -/
def loading (s : Settings) (launch : Launcher) (tree : Tree) : Source.Loading :=
  match s.tableSource with
  | .error f => ⟨.error f, [], tree⟩
  | .ok source => source.consult launch tree

theorem loading_of_sourceless {f : Fault} (h : s.tableSource = .error f) :
    s.loading launch tree = ⟨.error f, [], tree⟩ := by
  rw [loading, h]

theorem loading_of_tableSource {source : Source} (h : s.tableSource = .ok source) :
    s.loading launch tree = source.consult launch tree := by
  rw [loading, h]

/-- Asking comes to the table of the settings. -/
theorem loading_table (s : Settings) (launch : Launcher) (tree : Tree) :
    (s.loading launch tree).table = s.load launch tree := by
  rw [load]
  cases hsource : s.tableSource with
  | error f =>
    rw [loading_of_sourceless hsource]
    rfl
  | ok source =>
    rw [loading_of_tableSource hsource]
    rfl

/-- A table is loaded from the source that the settings name. -/
theorem load_eq_ok_iff {table : Table} :
    s.load launch tree = .ok table ↔ ∃ source, s.tableSource = .ok source ∧ source.load launch tree = .ok table := by
  rw [load]
  cases s.tableSource with
  | error f => simp [Except.bind]
  | ok source => simp [Except.bind]

/-- The write that comes behind the loading of a table. -/
def writing (s : Settings) (launch : Launcher) (tree : Tree) (table : Table) : Tree × Except Fault Bytes :=
  s.kind.write s.root (s.kind.render table) (s.loading launch tree).tree

/-- The report of timings, which is there only if it was asked for. -/
def timingReport (s : Settings) (stages : List String) : Text :=
  if s.timings then unlines (stages.map String.toList) else []

theorem timingReport_of_timed (h : s.timings = true) (stages : List String) :
    s.timingReport stages = unlines (stages.map String.toList) := by
  rw [timingReport, if_pos h]

theorem timingReport_of_untimed (h : s.timings = false) (stages : List String) : s.timingReport stages = [] := by
  rw [timingReport, h]
  rfl

/-- A run whose table does not load, as a whole. -/
theorem run_of_unloaded {f : Fault} (h : s.load launch tree = .error f) :
    s.run launch tree =
      { status := f.exitStatus
        output := s.timingReport ["----------------", "overall time:", "----------------"]
        chatter := (s.loading launch tree).chatter
        notices := []
        report := some f
        tree := (s.loading launch tree).tree } := by
  rw [← loading_table] at h
  rw [run, generate]
  cases hsource : s.tableSource with
  | error g =>
    rw [loading_of_sourceless hsource] at h ⊢
    cases h
    rfl
  | ok source =>
    rw [loading_of_tableSource hsource] at h ⊢
    dsimp only
    rw [generateWith_of_load_error h]
    rfl

section

variable {source : Source} {table : Table}

/-- The generation of a run whose table loads. -/
theorem generate_of_loaded (hsource : s.tableSource = .ok source) (hload : source.load launch tree = .ok table) :
    s.generate launch tree =
      ⟨(Stage.finished source table (s.kind.render table) (s.writing launch tree table).2).foldl
          (Progress.observe s.verbose) Progress.start,
        (s.loading launch tree).chatter, (s.writing launch tree table).1, (s.writing launch tree table).2⟩ := by
  rw [generate, hsource]
  dsimp only
  rw [generateWith_eq_of_load_ok hload, writing, loading_of_tableSource hsource]

/-- A run whose artifact cannot be written, as a whole. -/
theorem run_of_unwritten (hsource : s.tableSource = .ok source) (hload : source.load launch tree = .ok table)
    {t' : Tree} {f : Fault} (hwrite : s.writing launch tree table = (t', .error f)) :
    s.run launch tree =
      { status := f.exitStatus
        output := s.timingReport
          ["----------------", "overall time:", "loading table:", "rendering:", "----------------"]
        chatter := (s.loading launch tree).chatter
        notices := Progress.noticesOnLoading s.verbose source table
        report := some f
        tree := t' } := by
  rw [run, generate_of_loaded hsource hload, hwrite]
  rfl

/-- A run whose artifact is written, as a whole. -/
theorem run_of_written (hsource : s.tableSource = .ok source) (hload : source.load launch tree = .ok table)
    {t' : Tree} {path : Bytes} (hwrite : s.writing launch tree table = (t', .ok path)) :
    s.run launch tree =
      { status := 0
        output := s.timingReport ["----------------", "overall time:", "loading table:", "rendering:", "writing file:"]
        chatter := (s.loading launch tree).chatter
        notices := Progress.noticesOnLoading s.verbose source table ++
          if s.verbose then [.wrote s.kind path] else []
        report := none
        tree := t' } := by
  rw [run, generate_of_loaded hsource hload, hwrite]
  rfl

end

/-- What a generation comes to does not depend on who is told of it. -/
theorem generate_observed (s : Settings) (verbose timings : Bool) (launch : Launcher) (tree : Tree) :
    let g := s.generate launch tree
    let g' := { s with verbose, timings }.generate launch tree
    (g'.tree, g'.result) = (g.tree, g.result) := by
  have hsource : { s with verbose, timings }.tableSource = s.tableSource := rfl
  simp only [generate, hsource]
  cases s.tableSource with
  | error f => rfl
  | ok source =>
    dsimp only
    rw [← generate_eq_generateWith, ← generate_eq_generateWith]

/-- Whether a run says what it does, and how long that took, has no part in the rest of what it leaves behind. -/
theorem run_observed (s : Settings) (verbose timings : Bool) (launch : Launcher) (tree : Tree) :
    let o := s.run launch tree
    let o' := { s with verbose, timings }.run launch tree
    o'.status = o.status ∧ o'.report = o.report ∧ o'.tree = o.tree := by
  obtain ⟨htree, hresult⟩ := Prod.mk.inj (s.generate_observed verbose timings launch tree)
  -- but for what is said, an outcome has nothing of its generation besides these two
  simp only [run, outcome, hresult, htree]
  cases (s.generate launch tree).result with
  | error f => exact ⟨rfl, rfl, rfl⟩
  | ok path => exact ⟨rfl, rfl, rfl⟩

end Settings

end ErrnoBindings
