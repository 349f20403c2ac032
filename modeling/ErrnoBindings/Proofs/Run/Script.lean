import ErrnoBindings.Proofs.Run.Status
import ErrnoBindings.Run.Script

/-!
# The script comes to the run

A run is a function of a tree, and the program that is handed out is a script of calls. This module says that the two
are one program: played on a tree, the script leaves the tree that the run leaves, and comes to its outcome
(`Script.onTree_run`). What is known of runs is therefore known of the calls that a system is asked to carry out.

The calls are where the two differ. A script names a directory by its path each time it has something done there, and
a write of the library knows where the directory is once it has been made. Its path leads there from then on, since
nothing that is done to files takes a directory away (`Tree.get?_writeEntry_of_directory`).
-/

namespace ErrnoBindings

namespace Tree

/-- What is done to an entry is done in the directory that the path of the entry leads to. -/
theorem atEntry_of_locate {t : Tree} {path name : Bytes} {dir : Location}
    (h : t.locate (path ++ Path.separator :: name) = .ok (dir ++ [name]))
    (act : Location → Tree × Except SystemError Unit) : t.atEntry path name act = act dir := by
  rw [atEntry, h]
  dsimp only
  rw [List.dropLast_concat]

end Tree

namespace Script

section

variable {α β : Type} {launch : Launcher}

@[simp] theorem onTree_pure (a : α) (t : Tree) : (pure a : Script α).onTree launch t = (t, a) := rfl

@[simp] theorem onTree_ask (c : Call α) (t : Tree) : (ask c).onTree launch t = c.onTree launch t := rfl

/-- A script that follows another is played on the tree that the other leaves. -/
theorem onTree_bind (p : Script α) (f : α → Script β) (t : Tree) :
    (p >>= f).onTree launch t = (f (p.onTree launch t).2).onTree launch (p.onTree launch t).1 := by
  induction p generalizing t with
  | done a => rfl
  | call c next ih => exact ih _ _

end

/-! ## Calls for a directory that is there -/

section

variable {launch : Launcher} {t : Tree} {path staged name : Bytes} {dir : Location}

/-- What was staged is taken away, and the refusal stands. -/
theorem onTree_withdraw (hstaged : t.locate (path ++ Path.separator :: staged) = .ok (dir ++ [staged])) (r : Reason) :
    (publish.withdraw path staged r).onTree launch t = (t.unlinkEntry dir staged, .error r) := by
  rw [publish.withdraw, onTree_bind]
  simp only [onTree_ask, Call.onTree, Tree.atEntry_of_locate hstaged, onTree_pure]

/-- Where the path of the staged file leads nowhere, nothing is done. -/
theorem onTree_publish_of_error {e : SystemError} (h : t.locate (path ++ Path.separator :: staged) = .error e)
    (contents : Bytes) :
    (publish path staged name contents).onTree launch t = (t, .error (.system e)) := by
  have hentry : ∀ act, t.atEntry path staged act = (t, .error e) := fun act => by rw [Tree.atEntry, h]
  rw [publish, onTree_bind]
  simp only [onTree_ask, Call.onTree, hentry, Reason.ofAnswer_error, publish.withdraw, onTree_bind, onTree_pure]

/-- In a directory that its path leads to, the script publishes a file as the library does. -/
theorem onTree_publish (hdir : t.get? dir = some .directory)
    (hstaged : t.locate (path ++ Path.separator :: staged) = .ok (dir ++ [staged]))
    (hname : t.locate (path ++ Path.separator :: name) = .ok (dir ++ [name])) (contents : Bytes) :
    (publish path staged name contents).onTree launch t =
      ((t.publish dir staged name contents).1, Reason.ofAnswer (t.publish dir staged name contents).2) := by
  rw [publish, Tree.publish, onTree_bind]
  simp only [onTree_ask, Call.onTree, Tree.atEntry_of_locate hstaged]
  rcases hwrite : t.writeEntry dir staged contents with ⟨t₁, e | ⟨⟩⟩
  · obtain rfl := Tree.eq_of_writeEntry_error hwrite
    exact onTree_withdraw hstaged (.system e)
  · -- the paths still lead to the two entries when the file is staged
    have hkeeps : ∀ l, t.get? l = some .directory → t₁.get? l = some .directory := by
      intro l hl
      have hkept : (t.writeEntry dir staged contents).1.get? l = some .directory :=
        Tree.get?_writeEntry_of_directory hdir hl
      rwa [hwrite] at hkept
    have hstaged₁ := Tree.locate_of_keeps hkeeps hstaged
    have hname₁ := Tree.locate_of_keeps hkeeps hname
    simp only [Reason.ofAnswer_ok, onTree_bind, onTree_ask, Call.onTree, Tree.atEntry_of_locate hstaged₁,
      Tree.atEntry_of_locate hname₁]
    rcases hrename : t₁.renameEntry dir staged name with ⟨t₂, e | ⟨⟩⟩
    · obtain rfl := Tree.eq_of_renameEntry_error hrename
      exact onTree_withdraw hstaged₁ (.system e)
    · rfl

end

/-! ## The parts of a run -/

section

variable {σ : Type} (launch : Launcher) (t : Tree)

/-- The script writes an artifact as the library does. -/
theorem onTree_write (a : Artifact) (root : Bytes) (contents : Text) :
    (write a root contents).onTree launch t = a.write root contents t := by
  rw [write, Artifact.write, onTree_bind]
  simp only [onTree_ask, Call.onTree]
  rcases hmade : t.makeDirectories (a.parentPath root) with ⟨t₁, e | dir⟩
  · rfl
  · obtain ⟨hwalk, hdir, -⟩ := Tree.makeDirectories_eq_ok hmade
    cases hcheck : Path.check (a.stagingPath root) with
    | error e =>
      have hlocate : t₁.locate (a.parentPath root ++ Path.separator :: Utf8.encode a.stagingName) = .error e := by
        rw [← Artifact.stagingPath_eq, Tree.locate, hcheck]
      simp only [onTree_bind, onTree_publish_of_error hlocate, onTree_pure]
      rfl
    | ok =>
      have hcheck' := Artifact.check_destination hcheck
      rw [Artifact.stagingPath_eq] at hcheck
      rw [Artifact.destination_eq] at hcheck'
      have hstaged := Tree.locate_entry hwalk hdir (Artifact.steps_stagingName a) a.length_stagingName_le hcheck
      have hname := Tree.locate_entry hwalk hdir (Artifact.steps_fileName a) a.length_fileName_le hcheck'
      simp only [onTree_bind, onTree_publish hdir hstaged hname]
      rcases t₁.publish dir (Utf8.encode a.stagingName) (Utf8.encode a.fileName) (Utf8.encode contents) with
        ⟨t₂, e | ⟨⟩⟩
      · rfl
      · rfl

/-- The script asks a source as the library does. -/
theorem onTree_consult (source : Source) :
    (consult source).onTree launch t =
      ((source.consult launch t).tree, (source.consult launch t).table, (source.consult launch t).chatter) := by
  cases source with
  | table table => rfl
  | listing path =>
    rw [consult, Source.consult, onTree_bind]
    simp only [onTree_ask, Call.onTree]
    cases t.readFile path with
    | error e => rfl
    | ok octets => rfl
  | command c =>
    rw [consult, Source.consult, onTree_bind]
    simp only [onTree_ask, Call.onTree]
    cases launch t c with
    | refused e => rfl
    | ran e =>
      dsimp only
      split <;> rfl

/-- The script generates as the library does. -/
theorem onTree_generateWith (observe : σ → Stage → σ) (start : σ) (source : Source) (root : Bytes) (a : Artifact) :
    let g := ErrnoBindings.generateWith observe start launch source root a t
    ∃ answer, (generateWith observe start source root a).onTree launch t = (g.tree, answer) ∧ answer g.tree = g := by
  intro g
  rw [generateWith, onTree_bind, onTree_consult]
  cases hload : source.load launch t with
  | error f =>
    have hg : g = _ := generateWith_of_load_error hload root a
    have htable : (source.consult launch t).table = .error f := hload
    rw [hg]
    simp only [htable, onTree_pure]
    exact ⟨_, rfl, rfl⟩
  | ok table =>
    have hg : g = _ := generateWith_eq_of_load_ok hload root a
    have htable : (source.consult launch t).table = .ok table := hload
    rw [hg]
    simp only [htable, onTree_bind, onTree_write]
    rcases a.write root (a.render table) (source.consult launch t).tree with ⟨t', f | path⟩
    · exact ⟨_, rfl, rfl⟩
    · exact ⟨_, rfl, rfl⟩

/-- The script generates what settings ask for as the library does. -/
theorem onTree_generate (s : Settings) :
    ∃ answer, (generate s).onTree launch t = ((s.generate launch t).tree, answer) ∧
      answer (s.generate launch t).tree = s.generate launch t := by
  rw [generate, Settings.generate]
  cases s.tableSource with
  | error f => exact ⟨_, rfl, rfl⟩
  | ok source => exact onTree_generateWith launch t (Progress.observe s.verbose) Progress.start source s.root s.kind

end

/-- **The script of the program comes to the run.** Played on any tree, with whatever launcher answers for commands, it
leaves the tree that the run leaves, and what it answers with is, for this tree, the outcome of the run. -/
theorem onTree_run (launch : Launcher) (env : Environment) (args : List Bytes) (tree : Tree) :
    let o := ErrnoBindings.run launch env args tree
    ∃ answer, (run env args).onTree launch tree = (o.tree, answer) ∧ answer o.tree = o := by
  intro o
  cases harguments : Request.ofArguments args with
  | error stop =>
    have ho : o = stop.outcome args tree := run_of_stop harguments launch env tree
    rw [ho, Stop.outcome_tree, run, harguments]
    exact ⟨_, rfl, rfl⟩
  | ok request =>
    have ho : o = (Settings.resolve request env).run launch tree := run_of_request harguments launch env tree
    obtain ⟨answer, hplayed, hanswer⟩ := onTree_generate launch tree (Settings.resolve request env)
    rw [ho, Settings.run_tree, run, harguments]
    simp only [onTree_bind, hplayed, onTree_pure]
    refine ⟨_, rfl, ?_⟩
    rw [hanswer]
    rfl

end Script

end ErrnoBindings
