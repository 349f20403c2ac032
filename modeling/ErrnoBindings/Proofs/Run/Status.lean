import ErrnoBindings.Proofs.Artifact.Writing
import ErrnoBindings.Run.Basic
import ErrnoBindings.Utility.Launcher

/-!
# What an exit status says

A run can stop at its arguments, at the building or the loading of its source, or at the write, or get to its end.
Its exit status says which of these it was, and with it what became of the tree (`Outcome.Lawful`).

The way there is short. A run with settings is a load and a write behind it (`Settings.run_of_load_error`,
`Settings.run_of_load_ok`), a load fails in two ways only (`Settings.load_eq_error`), and what a write leaves is known
from its answer. From how far a run gets its status follows, and the way back is open because there are only six
places to stop at, with five statuses between them (`Outcome.stops_run`).
-/

namespace ErrnoBindings

/-- The command line is accepted, and these are the settings of the run in its environment. -/
def Accepts (args : List Bytes) (env : Environment) (s : Settings) : Prop :=
  ∃ request, Request.ofArguments args = .ok request ∧ Settings.resolve request env = s

/-- The command line asks for help or for the version. -/
def AsksForText (args : List Bytes) : Prop :=
  (∃ full, Request.ofArguments args = .error (.help full)) ∨ Request.ofArguments args = .error .version

namespace Settings

/-- The table of the settings: the source that they name is built, and asked for it. -/
def load (s : Settings) (launch : Launcher) (tree : Tree) : Except Fault Table :=
  s.tableSource.bind fun source => source.load launch tree

variable {s : Settings} {launch : Launcher} {tree : Tree}

/-- A load fails because nothing could be read from the source, or because what was read is malformed. -/
theorem load_eq_error {f : Fault} (h : s.load launch tree = .error f) :
    (∃ origin reason, f = .sourceUnavailable origin reason) ∨
      ∃ lineNo defect line span, f = .malformedRow lineNo defect line span := by
  rw [load] at h
  cases hsource : s.tableSource with
  | error g =>
    obtain ⟨line, -, -, hg⟩ := tableSource_eq_error_iff.mp hsource
    rw [hsource] at h
    cases h
    exact Or.inl ⟨_, _, hg⟩
  | ok source =>
    rw [hsource] at h
    exact (Source.load_eq_error h).imp (fun ⟨reason, hf⟩ => ⟨_, reason, hf⟩) id

/-- Whether asking the source that the settings name leaves the tree as it was. -/
def LeavesTree (s : Settings) (launch : Launcher) (tree : Tree) : Prop :=
  ∀ source, s.tableSource = .ok source → source.LeavesTree launch tree

theorem leavesTree_of_tableSource {source : Source} (hsource : s.tableSource = .ok source)
    (h : source.LeavesTree launch tree) : s.LeavesTree launch tree := by
  intro source' hsource'
  rw [hsource] at hsource'
  cases hsource'
  exact h

/-- A generation whose table does not load touches nothing and ends in the fault. -/
theorem generate_of_load_error (hleaves : s.LeavesTree launch tree) {f : Fault}
    (h : s.load launch tree = .error f) :
    (s.generate launch tree).tree = tree ∧ (s.generate launch tree).result = .error f := by
  rw [load] at h
  cases hsource : s.tableSource with
  | error g =>
    rw [hsource] at h
    cases h
    simp [generate, hsource]
  | ok source =>
    rw [hsource] at h
    have hload : source.load launch tree = .error f := h
    simp [generate, hsource, generateWith_of_load_error hload, (hleaves source hsource).consult_tree]

/-- A generation whose table loads is the write of what it renders to. -/
theorem generate_of_load_ok (hleaves : s.LeavesTree launch tree) {table : Table}
    (h : s.load launch tree = .ok table) :
    ((s.generate launch tree).tree, (s.generate launch tree).result) =
      s.kind.write s.root (s.kind.render table) tree := by
  rw [load] at h
  cases hsource : s.tableSource with
  | error g =>
    rw [hsource] at h
    cases h
  | ok source =>
    rw [hsource] at h
    have hload : source.load launch tree = .ok table := h
    rw [generate, hsource]
    dsimp only
    rw [generateWith_of_load_ok hload, (hleaves source hsource).consult_tree]

/-- A run leaves the tree that its generation leaves. -/
theorem run_tree : (s.run launch tree).tree = (s.generate launch tree).tree := by
  rw [run, outcome]
  split <;> rfl

/-- A run whose generation fails has the status of the fault. -/
theorem run_status_of_error {f : Fault} (h : (s.generate launch tree).result = .error f) :
    (s.run launch tree).status = f.exitStatus := by
  rw [run, outcome, h]

/-- A run whose generation succeeds has the status zero. -/
theorem run_status_of_ok {path : Bytes} (h : (s.generate launch tree).result = .ok path) :
    (s.run launch tree).status = 0 := by
  rw [run, outcome, h]

/-- A run whose table does not load ends with the status of the fault and touches nothing. -/
theorem run_of_load_error (hleaves : s.LeavesTree launch tree) {f : Fault}
    (h : s.load launch tree = .error f) :
    (s.run launch tree).status = f.exitStatus ∧ (s.run launch tree).tree = tree := by
  obtain ⟨htree, hresult⟩ := generate_of_load_error hleaves h
  exact ⟨run_status_of_error hresult, run_tree.trans htree⟩

/-- A run whose artifact cannot be written ends with status four and leaves what the write leaves. -/
theorem run_of_write_error (hleaves : s.LeavesTree launch tree) {table : Table}
    (h : s.load launch tree = .ok table) {t' : Tree} {f : Fault}
    (hwrite : s.kind.write s.root (s.kind.render table) tree = (t', .error f)) :
    (s.run launch tree).status = 4 ∧ (s.run launch tree).tree = t' := by
  obtain ⟨htree, hresult⟩ := Prod.mk.inj ((generate_of_load_ok hleaves h).trans hwrite)
  obtain ⟨e, rfl⟩ := Artifact.write_eq_error hwrite
  exact ⟨run_status_of_error hresult, run_tree.trans htree⟩

/-- A run whose artifact is written ends with status zero and leaves what the write leaves. -/
theorem run_of_write_ok (hleaves : s.LeavesTree launch tree) {table : Table}
    (h : s.load launch tree = .ok table) {t' : Tree} {path : Bytes}
    (hwrite : s.kind.write s.root (s.kind.render table) tree = (t', .ok path)) :
    (s.run launch tree).status = 0 ∧ (s.run launch tree).tree = t' := by
  obtain ⟨htree, hresult⟩ := Prod.mk.inj ((generate_of_load_ok hleaves h).trans hwrite)
  exact ⟨run_status_of_ok hresult, run_tree.trans htree⟩

end Settings

/-- An accepted command line is run with its settings. -/
theorem Accepts.run_eq {args : List Bytes} {env : Environment} {s : Settings} (h : Accepts args env s)
    (launch : Launcher) (tree : Tree) : run launch env args tree = s.run launch tree := by
  obtain ⟨request, hrequest, rfl⟩ := h
  exact run_of_request hrequest launch env tree

/-- There is only one way to read a command line. -/
theorem Accepts.unique {args : List Bytes} {env : Environment} {s s' : Settings} (h : Accepts args env s)
    (h' : Accepts args env s') : s = s' := by
  obtain ⟨request, hrequest, rfl⟩ := h
  obtain ⟨request', hrequest', rfl⟩ := h'
  rw [hrequest] at hrequest'
  cases hrequest'
  rfl

/-- Asking for help or for the version is a success and touches nothing. -/
theorem run_of_asksForText {args : List Bytes} (h : AsksForText args) (launch : Launcher) (env : Environment)
    (tree : Tree) : (run launch env args tree).status = 0 ∧ (run launch env args tree).tree = tree := by
  rcases h with ⟨full, harguments⟩ | harguments
  · rw [run_of_stop harguments]
    exact ⟨rfl, Stop.outcome_tree args tree (.help full)⟩
  · rw [run_of_stop harguments]
    exact ⟨rfl, Stop.outcome_tree args tree .version⟩

/-! ## How far a run gets -/

namespace Outcome

/-- Where a run can stop, with what the outcome is then. -/
inductive Stops (launch : Launcher) (env : Environment) (args : List Bytes) (tree : Tree) (o : Outcome) : Prop where
  /-- at its arguments, which are refused -/
  | refused {r : Refusal} (arguments : Request.ofArguments args = .error (.refused r)) (status : o.status = 1)
      (tree_eq : o.tree = tree) (report : o.report = none)
      (output : o.output = usageLine (shownName args) ++ ['\n'])
  /-- at its arguments, which ask for help or for the version -/
  | answered (arguments : AsksForText args) (status : o.status = 0) (tree_eq : o.tree = tree)
  /-- at its source, from which nothing can be read -/
  | unavailable {s : Settings} {origin : Text} {reason : Reason} (accepts : Accepts args env s)
      (load : s.load launch tree = .error (.sourceUnavailable origin reason)) (status : o.status = 2)
      (tree_eq : o.tree = tree)
  /-- at its source, in which a row is malformed -/
  | malformed {s : Settings} {lineNo : Nat} {defect : RowDefect} {line : Text} {span : Span}
      (accepts : Accepts args env s) (load : s.load launch tree = .error (.malformedRow lineNo defect line span))
      (status : o.status = 3) (tree_eq : o.tree = tree)
  /-- at the write, which is refused -/
  | unwritten {s : Settings} {table : Table} {f : Fault} (accepts : Accepts args env s)
      (load : s.load launch tree = .ok table) (status : o.status = 4)
      (write : s.kind.write s.root (s.kind.render table) tree = (o.tree, .error f))
  /-- at its end -/
  | written {s : Settings} {table : Table} {path : Bytes} (accepts : Accepts args env s)
      (load : s.load launch tree = .ok table) (status : o.status = 0)
      (write : s.kind.write s.root (s.kind.render table) tree = (o.tree, .ok path))

/-- A run stops at one of these places, if the command that it runs for a listing, should it run one, leaves the tree
alone. -/
theorem stops_run {launch : Launcher} {env : Environment} {args : List Bytes} {tree : Tree}
    (hleaves : ∀ s, Accepts args env s → s.LeavesTree launch tree) :
    Stops launch env args tree (run launch env args tree) := by
  cases harguments : Request.ofArguments args with
  | error stop =>
    rw [run_of_stop harguments]
    have htree := Stop.outcome_tree args tree stop
    have hreport := Stop.outcome_report args tree stop
    cases stop with
    | help full => exact .answered (Or.inl ⟨full, harguments⟩) rfl htree
    | version => exact .answered (Or.inr harguments) rfl htree
    | refused r => exact .refused harguments rfl htree hreport rfl
  | ok request =>
    have haccepts : Accepts args env (Settings.resolve request env) := ⟨request, harguments, rfl⟩
    have hleaves := hleaves _ haccepts
    rw [haccepts.run_eq]
    cases hload : (Settings.resolve request env).load launch tree with
    | error f =>
      obtain ⟨hstatus, htree⟩ := Settings.run_of_load_error hleaves hload
      rcases Settings.load_eq_error hload with ⟨origin, reason, rfl⟩ | ⟨lineNo, defect, line, span, rfl⟩
      · exact .unavailable haccepts hload hstatus htree
      · exact .malformed haccepts hload hstatus htree
    | ok table =>
      generalize Settings.resolve request env = s at haccepts hleaves hload ⊢
      rcases hwrite : s.kind.write s.root (s.kind.render table) tree with ⟨t', f | path⟩
      · obtain ⟨hstatus, htree⟩ := Settings.run_of_write_error hleaves hload hwrite
        exact .unwritten haccepts hload hstatus (htree ▸ hwrite)
      · obtain ⟨hstatus, htree⟩ := Settings.run_of_write_ok hleaves hload hwrite
        exact .written haccepts hload hstatus (htree ▸ hwrite)

namespace Stops

variable {launch : Launcher} {env : Environment} {args : List Bytes} {tree : Tree} {o : Outcome}

theorem of_status_zero (h : Stops launch env args tree o) (hstatus : o.status = 0) :
    AsksForText args ∧ o.tree = tree ∨ ∃ s table path, Accepts args env s ∧ s.load launch tree = .ok table ∧
      s.kind.write s.root (s.kind.render table) tree = (o.tree, .ok path) := by
  cases h with
  | answered harguments _ htree => exact Or.inl ⟨harguments, htree⟩
  | written haccepts hload _ hwrite => exact Or.inr ⟨_, _, _, haccepts, hload, hwrite⟩
  | _ => omega

theorem of_status_one (h : Stops launch env args tree o) (hstatus : o.status = 1) :
    (∃ r, Request.ofArguments args = .error (.refused r)) ∧ o.tree = tree ∧ o.report = none ∧
      o.output = usageLine (shownName args) ++ ['\n'] := by
  cases h with
  | refused harguments _ htree hreport houtput => exact ⟨⟨_, harguments⟩, htree, hreport, houtput⟩
  | _ => omega

theorem of_status_two (h : Stops launch env args tree o) (hstatus : o.status = 2) :
    (∃ s, Accepts args env s ∧ ∃ origin reason, s.load launch tree = .error (.sourceUnavailable origin reason)) ∧
      o.tree = tree := by
  cases h with
  | unavailable haccepts hload _ htree => exact ⟨⟨_, haccepts, _, _, hload⟩, htree⟩
  | _ => omega

theorem of_status_three (h : Stops launch env args tree o) (hstatus : o.status = 3) :
    (∃ s, Accepts args env s ∧
      ∃ lineNo defect line span, s.load launch tree = .error (.malformedRow lineNo defect line span)) ∧
      o.tree = tree := by
  cases h with
  | malformed haccepts hload _ htree => exact ⟨⟨_, haccepts, _, _, _, _, hload⟩, htree⟩
  | _ => omega

theorem of_status_four (h : Stops launch env args tree o) (hstatus : o.status = 4) :
    ∃ s table f, Accepts args env s ∧ s.load launch tree = .ok table ∧
      s.kind.write s.root (s.kind.render table) tree = (o.tree, .error f) := by
  cases h with
  | unwritten haccepts hload _ hwrite => exact ⟨_, _, _, haccepts, hload, hwrite⟩
  | _ => omega

theorem status_le (h : Stops launch env args tree o) : o.status ≤ 4 := by
  cases h <;> omega

end Stops

/-! ## What the status says -/

/-- What the exit status says of a run, and what the run has done to the tree. -/
structure Lawful (launch : Launcher) (env : Environment) (args : List Bytes) (tree : Tree) (o : Outcome) : Prop where
  /-- there are five statuses -/
  status_le : o.status ≤ 4
  /-- one: the arguments are refused -/
  status_eq_one : o.status = 1 ↔ ∃ r, Request.ofArguments args = .error (.refused r)
  /-- then nothing is touched, nothing is reported, and all that is printed is the usage line -/
  refused : o.status = 1 → o.tree = tree ∧ o.report = none ∧ o.output = usageLine (shownName args) ++ ['\n'] ∧
    ('\n' ∉ shownName args → lines o.output = [usageLine (shownName args)])
  /-- help and the version are a success that touches nothing -/
  answered : AsksForText args → o.status = 0 ∧ o.tree = tree
  /-- two: nothing can be read from the source, or there is none -/
  status_eq_two : o.status = 2 ↔
    ∃ s, Accepts args env s ∧ ∃ origin reason, s.load launch tree = .error (.sourceUnavailable origin reason)
  /-- three: what is read is malformed -/
  status_eq_three : o.status = 3 ↔ ∃ s, Accepts args env s ∧
    ∃ lineNo defect line span, s.load launch tree = .error (.malformedRow lineNo defect line span)
  /-- then nothing is touched, and not even a directory is made -/
  unloaded : o.status = 2 ∨ o.status = 3 → o.tree = tree
  /-- four: the table loads and the artifact cannot be written -/
  status_eq_four : o.status = 4 ↔ ∃ s table, Accepts args env s ∧ s.load launch tree = .ok table ∧
    ∃ f, (s.kind.write s.root (s.kind.render table) tree).2 = .error f
  /-- then no regular file is new, and none is gone or changed, but for one in the place of the staged file -/
  unwritten : ∀ s, o.status = 4 → Accepts args env s →
    (∀ l c, o.tree.get? l = some (.file c) → tree.get? l = some (.file c)) ∧
    (∀ l c, l ≠ Path.location (s.kind.stagingPath s.root) → tree.get? l = some (.file c) →
      o.tree.get? l = some (.file c))
  /-- zero: all the rest -/
  status_eq_zero : o.status = 0 ↔ AsksForText args ∨ ∃ s table path, Accepts args env s ∧
    s.load launch tree = .ok table ∧ (s.kind.write s.root (s.kind.render table) tree).2 = .ok path
  /-- then, if the arguments were accepted, the table is rendered at the destination, and everything else is as a
  successful write leaves it -/
  written : ∀ s table, o.status = 0 → Accepts args env s → s.load launch tree = .ok table →
    s.kind.Written s.root (s.kind.render table) tree o.tree (s.kind.destination s.root)

/-- The usage line with its newline is one line, if the name in it has none. -/
theorem lines_usageLine {name : Text} (h : '\n' ∉ name) : lines (usageLine name ++ ['\n']) = [usageLine name] := by
  have htail : IsLine " <h | c>".toList := by decide
  have hhead : '\n' ∉ "usage: ".toList ++ name := by
    rw [List.mem_append, not_or]
    exact ⟨by decide, h⟩
  exact lines_append_newline (htail.append hhead (by decide)) []

/-- **The exit status tells how far a run got, and what it did.** For every launcher, command line, environment and
tree, the run is lawful. All that is assumed is that the command which this run asks for a listing, should it ask one,
leaves the tree alone: what other commands would do does not matter, and a run that is refused, answers with a text,
reads a captured listing or has nothing to ask assumes nothing. -/
theorem lawful_run {launch : Launcher} {env : Environment} {args : List Bytes} {tree : Tree}
    (hleaves : ∀ s, Accepts args env s → s.LeavesTree launch tree) :
    Lawful launch env args tree (run launch env args tree) := by
  have hstops := stops_run hleaves
  -- from the status to the place where the run stopped by `hstops`, and back by running up to there
  exact {
    status_le := hstops.status_le
    status_eq_one := by
      refine ⟨fun h => (hstops.of_status_one h).1, ?_⟩
      rintro ⟨r, harguments⟩
      rw [run_of_stop harguments]
      rfl
    refused := by
      intro hstatus
      obtain ⟨-, htree, hreport, houtput⟩ := hstops.of_status_one hstatus
      refine ⟨htree, hreport, houtput, fun hname => ?_⟩
      rw [houtput, lines_usageLine hname]
    answered := fun h => run_of_asksForText h launch env tree
    status_eq_two := by
      refine ⟨fun h => (hstops.of_status_two h).1, ?_⟩
      rintro ⟨s, haccepts, origin, reason, hload⟩
      rw [haccepts.run_eq]
      exact (Settings.run_of_load_error (hleaves s haccepts) hload).1
    status_eq_three := by
      refine ⟨fun h => (hstops.of_status_three h).1, ?_⟩
      rintro ⟨s, haccepts, lineNo, defect, line, span, hload⟩
      rw [haccepts.run_eq]
      exact (Settings.run_of_load_error (hleaves s haccepts) hload).1
    unloaded := by
      rintro (hstatus | hstatus)
      · exact (hstops.of_status_two hstatus).2
      · exact (hstops.of_status_three hstatus).2
    status_eq_four := by
      constructor
      · intro hstatus
        obtain ⟨s, table, f, haccepts, hload, hwrite⟩ := hstops.of_status_four hstatus
        exact ⟨s, table, haccepts, hload, f, congrArg Prod.snd hwrite⟩
      · rintro ⟨s, table, haccepts, hload, f, hwrite⟩
        rw [haccepts.run_eq]
        exact (Settings.run_of_write_error (hleaves s haccepts) hload (Prod.ext rfl hwrite)).1
    unwritten := by
      intro s hstatus haccepts
      obtain ⟨s', table, f, haccepts', hload, hwrite⟩ := hstops.of_status_four hstatus
      obtain rfl := haccepts.unique haccepts'
      have hrefused := Artifact.refused_of_write hwrite
      exact ⟨hrefused.files, hrefused.others⟩
    status_eq_zero := by
      constructor
      · intro hstatus
        rcases hstops.of_status_zero hstatus with ⟨harguments, -⟩ | ⟨s, table, path, haccepts, hload, hwrite⟩
        · exact Or.inl harguments
        · exact Or.inr ⟨s, table, path, haccepts, hload, congrArg Prod.snd hwrite⟩
      · rintro (harguments | ⟨s, table, path, haccepts, hload, hwrite⟩)
        · exact (run_of_asksForText harguments launch env tree).1
        · rw [haccepts.run_eq]
          exact (Settings.run_of_write_ok (hleaves s haccepts) hload (Prod.ext rfl hwrite)).1
    written := by
      intro s table hstatus haccepts hload
      rcases hwrite : s.kind.write s.root (s.kind.render table) tree with ⟨t', f | path⟩
      · obtain ⟨hfour, -⟩ := Settings.run_of_write_error (hleaves s haccepts) hload hwrite
        rw [← haccepts.run_eq, hstatus] at hfour
        cases hfour
      · obtain ⟨-, htree⟩ := Settings.run_of_write_ok (hleaves s haccepts) hload hwrite
        have hwritten := Artifact.written_of_write hwrite
        rw [haccepts.run_eq, htree, ← hwritten.path_eq]
        exact hwritten }

/-- A tree in which a captured listing stands where the declarations belong. -/
def displacedTree : Tree :=
  ((Tree.empty.makeDirectories (Utf8.encode "inc/host".toList)).1).put
    [Utf8.encode "inc".toList, Utf8.encode "host".toList] (Utf8.encode "errno.h".toList)
    (.file (Utf8.encode "EPERM 1 Not permitted\n".toList))

/-- A command line that generates the declarations from what a program prints of the file that is their
destination. -/
def displacingArguments : List Bytes :=
  ["hosterrno", "h", "--errno-command", "cat inc/host/errno.h"].map fun a => Utf8.encode a.toList

/-- The settings of that command line where nothing is set in the environment. -/
def displacingSettings : Settings :=
  ⟨.declarations, defaultRoot, .command "cat inc/host/errno.h".toList, false, false⟩

/-- The command that they run. -/
def displacingCommand : Command := ⟨Utf8.encode "cat".toList, [Utf8.encode "inc/host/errno.h".toList]⟩

/-- Some utilities would change the tree, and the one that is run does not. -/
theorem lawful_run_displacing :
    (∀ s, Accepts displacingArguments (fun _ => none) s → s.LeavesTree Utility.bare displacedTree) ∧
      Lawful Utility.bare (fun _ => none) displacingArguments displacedTree
        (run Utility.bare (fun _ => none) displacingArguments displacedTree) ∧
      (run Utility.bare (fun _ => none) displacingArguments displacedTree).status = 0 ∧
      (run Utility.bare (fun _ => none) displacingArguments displacedTree).tree.readFile
          (Utf8.encode "inc/host/errno.h".toList) =
        .ok (Utf8.encode (Artifact.declarations.render ⟨[⟨"EPERM".toList, 1, "Not permitted".toList⟩]⟩)) := by
  have haccepts : Accepts displacingArguments (fun _ => none) displacingSettings :=
    ⟨⟨.declarations, none, some "cat inc/host/errno.h".toList, none, false, false⟩, by rfl, rfl⟩
  have hsource : displacingSettings.tableSource = .ok (.command displacingCommand) := by rfl
  have hran : Utility.bare displacedTree displacingCommand =
      .ran ⟨.exited 0, Utf8.encode "EPERM 1 Not permitted\n".toList, [], displacedTree⟩ := by rfl
  have hleaves : ∀ s, Accepts displacingArguments (fun _ => none) s → s.LeavesTree Utility.bare displacedTree := by
    intro s hs
    obtain rfl := haccepts.unique hs
    exact Settings.leavesTree_of_tableSource hsource (Source.leavesTree_command hran rfl)
  exact ⟨hleaves, lawful_run hleaves, rfl, rfl⟩

end Outcome

end ErrnoBindings
