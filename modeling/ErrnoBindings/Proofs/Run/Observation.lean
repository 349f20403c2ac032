import ErrnoBindings.Proofs.Run.Course

/-!
# Flags that only observe

Two of the flags ask for nothing but to be told of what is done. Command lines that are the same without them
(`CommandLine.Reobserves`) are accepted together, and their runs have the same status, the same report and the same
tree: a run ends as it would have ended unobserved (`Settings.run_observed`).

What the timings flag asks for is a report on standard output. Whether a run fails before or behind the loading of
its table, or not at all, this report has the stages that were reached, and a closing rule if it failed
(`Outcome.Timed`).
-/

namespace ErrnoBindings

/-- A command line is another one but for the flags for a verbose run and for timings, and has no flag twice. -/
structure CommandLine.Reobserves (line' line : CommandLine) : Prop where
  /-- without these flags the two are the same -/
  unobserved_eq : line'.unobserved = line.unobserved
  /-- a flag may not be given twice -/
  once : ∀ f, line'.gives.count (.flag f) ≤ 1

/-- A command line that differs from an accepted one in these flags is accepted, with the same settings up to them. -/
theorem Accepts.reobserve {line line' : CommandLine} {env : Environment} {s : Settings}
    (h : Accepts line.arguments env s) (hline' : line'.Reobserves line) :
    ∃ verbose timings, Accepts line'.arguments env { s with verbose, timings } := by
  obtain ⟨c, hc, rfl⟩ := h
  exact ⟨_, _, _, CommandLine.ofArguments_of_unobserved_eq hc hline'.unobserved_eq hline'.once, rfl⟩

namespace Outcome

/-- How standard output goes with the place where a run ends. -/
structure Timed (launch : Launcher) (args : List Bytes) (s : Settings) (tree : Tree) (o : Outcome) : Prop where
  /-- nothing is printed that is not asked for -/
  untimed : ¬ Gives args (.flag .timings) → o.output = []
  /-- a table that does not load makes the run fail, and no stage was reached -/
  unloaded : ∀ f, s.load launch tree = .error f → o.status ≠ 0 ∧ (Gives args (.flag .timings) →
    o.output = unlines (["----------------", "overall time:", "----------------"].map String.toList))
  /-- an artifact that is not written makes the run fail after two stages -/
  unwritten : ∀ table f, s.load launch tree = .ok table → (s.writing launch tree table).2 = .error f →
    o.status ≠ 0 ∧ (Gives args (.flag .timings) →
      o.output = unlines (["----------------", "overall time:", "loading table:", "rendering:",
        "----------------"].map String.toList))
  /-- an artifact that is written is the third stage, and the run does not fail -/
  written : ∀ table path, s.load launch tree = .ok table → (s.writing launch tree table).2 = .ok path →
    o.status = 0 ∧ (Gives args (.flag .timings) →
      o.output = unlines (["----------------", "overall time:", "loading table:", "rendering:",
        "writing file:"].map String.toList))

/-- What a run prints is the report of timings, if that is asked for. -/
theorem output_run (s : Settings) (launch : Launcher) (tree : Tree) :
    ∃ stages, (s.run launch tree).output = s.timingReport stages := by
  cases hload : s.load launch tree with
  | error f => exact ⟨_, congrArg output (Settings.run_of_unloaded hload)⟩
  | ok table =>
    obtain ⟨source, hsource, hload⟩ := Settings.load_eq_ok_iff.mp hload
    rcases hwrite : s.writing launch tree table with ⟨t', f | path⟩
    · exact ⟨_, congrArg output (Settings.run_of_unwritten hsource hload hwrite)⟩
    · exact ⟨_, congrArg output (Settings.run_of_written hsource hload hwrite)⟩

/-- The output of an accepted command line goes with the place where its run ends. -/
theorem timed_run {args : List Bytes} {env : Environment} {s : Settings} (h : Accepts args env s)
    (launch : Launcher) (tree : Tree) : Timed launch args s tree (run launch env args tree) := by
  rw [h.run_eq]
  have hnonzero : ∀ f : Fault, f.exitStatus ≠ 0 := by
    intro f
    have hrange := f.exitStatus_range
    omega
  refine ⟨?_, ?_, ?_, ?_⟩
  · intro huntimed
    rw [h.timings_iff, Bool.not_eq_true] at huntimed
    obtain ⟨stages, houtput⟩ := output_run s launch tree
    rw [houtput, Settings.timingReport_of_untimed huntimed]
  · intro f hload
    rw [Settings.run_of_unloaded hload, h.timings_iff]
    exact ⟨hnonzero f, fun htimed => Settings.timingReport_of_timed htimed _⟩
  · intro table f hload hwrite
    obtain ⟨source, hsource, hload⟩ := Settings.load_eq_ok_iff.mp hload
    rw [Settings.run_of_unwritten hsource hload (Prod.ext rfl hwrite), h.timings_iff]
    exact ⟨hnonzero f, fun htimed => Settings.timingReport_of_timed htimed _⟩
  · intro table path hload hwrite
    obtain ⟨source, hsource, hload⟩ := Settings.load_eq_ok_iff.mp hload
    rw [Settings.run_of_written hsource hload (Prod.ext rfl hwrite), h.timings_iff]
    exact ⟨rfl, fun htimed => Settings.timingReport_of_timed htimed _⟩

/-- **Observing a run does not change it.** Accepted arguments are a command line, and any command line that is the
same but for the flags for a verbose run and for timings is accepted as well, ends with the same status and the same
report, and leaves the same tree. The one thing that is printed is the report of timings, and it says how far the run
got. -/
theorem unchanged_of_reobserves {args : List Bytes} {env : Environment} {s : Settings} (h : Accepts args env s)
    (launch : Launcher) (tree : Tree) :
    (∃ line : CommandLine, line.arguments = args) ∧
    (∀ line line' : CommandLine, line.arguments = args → line'.Reobserves line →
      let o := run launch env args tree
      let o' := run launch env line'.arguments tree
      (∃ s', Accepts line'.arguments env s') ∧ o'.status = o.status ∧ o'.report = o.report ∧ o'.tree = o.tree) ∧
    Timed launch args s tree (run launch env args tree) := by
  refine ⟨?_, ?_, timed_run h launch tree⟩
  · obtain ⟨c, hc, -⟩ := h
    exact CommandLine.exists_arguments_eq hc
  · rintro line line' rfl hline' o o'
    obtain ⟨verbose, timings, h'⟩ := h.reobserve hline'
    have ho : o = s.run launch tree := h.run_eq launch tree
    have ho' : o' = { s with verbose, timings }.run launch tree := h'.run_eq launch tree
    rw [ho, ho']
    exact ⟨⟨_, h'⟩, s.run_observed verbose timings launch tree⟩

/-- A command line with both flags, one of them in front of another letter. -/
def observedLine : CommandLine :=
  ⟨Utf8.encode "hosterrno".toList,
    [.root true ⟨Utf8.encode "out".toList, by decide⟩, .timings, .joined .listing (Utf8.encode "codes".toList),
      .kind .declarations], .absent⟩

/-- A tree with a listing, and with a file where the output root is to be. -/
def obstructedTree : Tree :=
  (Tree.empty.put [] (Utf8.encode "codes".toList) (.file (Utf8.encode "EPERM 1 Not permitted\n".toList))).put []
    (Utf8.encode "out".toList) (.file [])

theorem unchanged_of_reobserves_obstructed :
    observedLine.arguments =
        ["hosterrno", "-vC", "out", "--timings", "--listing=codes", "h"].map (fun a => Utf8.encode a.toList) ∧
      observedLine.unobserved.arguments =
        ["hosterrno", "-C", "out", "--listing=codes", "h"].map (fun a => Utf8.encode a.toList) ∧
      (run .offline (fun _ => none) observedLine.unobserved.arguments obstructedTree).status = 4 ∧
      (run .offline (fun _ => none) observedLine.unobserved.arguments obstructedTree).output = [] ∧
      (run .offline (fun _ => none) observedLine.arguments obstructedTree).status = 4 ∧
      (run .offline (fun _ => none) observedLine.arguments obstructedTree).output =
        unlines (["----------------", "overall time:", "loading table:", "rendering:",
          "----------------"].map String.toList) := by
  have haccepts : Accepts observedLine.arguments (fun _ => none)
      ⟨.declarations, Utf8.encode "out".toList, .listing (Utf8.encode "codes".toList), true, true⟩ := ⟨_, rfl, rfl⟩
  have hline' : observedLine.unobserved.Reobserves observedLine := by
    refine ⟨rfl, fun f => ?_⟩
    cases f <;> decide
  obtain ⟨-, hsame, htimed⟩ := unchanged_of_reobserves haccepts .offline obstructedTree
  obtain ⟨-, hstatus, -, -⟩ := hsame _ _ rfl hline'
  have htimings : Gives observedLine.arguments (.flag .timings) := haccepts.timings_iff.mpr rfl
  obtain ⟨-, houtput⟩ := htimed.unwritten ⟨[⟨"EPERM".toList, 1, "Not permitted".toList⟩]⟩ _ rfl rfl
  exact ⟨rfl, rfl, hstatus, rfl, rfl, houtput htimings⟩

end Outcome

end ErrnoBindings
