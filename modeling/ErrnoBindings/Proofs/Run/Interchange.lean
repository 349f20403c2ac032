import ErrnoBindings.Proofs.Arguments.Sources
import ErrnoBindings.Proofs.Run.Status
import ErrnoBindings.Proofs.Text.Words
import ErrnoBindings.Utility.Launcher

/-!
# Listings and commands that print them

A listing is a file that is read, and a command is a program whose output is read. This module shows that it does not
matter which of them the octets come from (`interchangeable_listing_command`).

* Once a source comes to octets, its table is read from them, and nothing else of the source remains
  (`Source.Yields.load_eq`).
* A run takes nothing from a load that failed but the exit status. Runs whose loads differ in no more than in their
  faults of one status are therefore alike (`Settings.run_congr`), and a listing and a program that prints it load
  alike in this sense, also where there is nothing to be read (`Launcher.Prints.load_alike`).
* The line of the program is taken apart into its two words (`Command.ofLine_cat`), and the options that name the
  sources can stand for each other (`CommandLine.listing_or_command`).
-/

namespace ErrnoBindings

/-! ## Octets that are read -/

section

variable {launch : Launcher} {tree : Tree} {origin : Text} {reason : Reason} {octets : Bytes}

/-- Octets that encode no text are read as nothing. -/
theorem Table.ofOctets_of_not_utf8 (h : ¬∃ t, Utf8.encode t = octets) :
    Table.ofOctets origin reason octets = .error (.sourceUnavailable origin reason) := by
  rw [ofOctets]
  cases hdecode : Utf8.decode? octets with
  | none => rfl
  | some t => exact absurd ⟨t, Utf8.decode?_eq_some_iff.mp hdecode⟩ h

/-- Nothing is read exactly from octets that encode no text. -/
theorem Table.ofOctets_unavailable_iff :
    (∃ origin' reason', Table.ofOctets origin reason octets = .error (.sourceUnavailable origin' reason')) ↔
      ¬∃ t, Utf8.encode t = octets := by
  constructor
  · rintro ⟨origin', reason', h⟩ ⟨t, rfl⟩
    rw [ofOctets_encode] at h
    obtain ⟨n, defect, line, span, -, hf⟩ := Table.ofListing_eq_error h
    cases hf
  · intro h
    exact ⟨origin, reason, ofOctets_of_not_utf8 h⟩

/-- What asking a source comes to before anything is read as a table: the octets of the listing, or those that the
command printed before it succeeded. -/
def Source.Yields (launch : Launcher) (tree : Tree) (octets : Bytes) : Source → Prop
  | table _ => False
  | listing path => tree.readFile path = .ok octets
  | command c => ∃ e, launch tree c = .ran e ∧ e.ending.succeeded = true ∧ e.output = octets

/-- A source that comes to octets has the table that is read from them. -/
theorem Source.Yields.load_eq {s : Source} (h : s.Yields launch tree octets) :
    ∃ reason, s.load launch tree = Table.ofOctets s.describe reason octets := by
  cases s with
  | table t => cases h
  | listing path =>
    have hread : tree.readFile path = .ok octets := h
    exact ⟨.listingNotUtf8, by simp only [load, consult, hread]⟩
  | command c =>
    obtain ⟨e, hran, hsucceeded, rfl⟩ := h
    refine ⟨.outputNotUtf8, ?_⟩
    simp only [load, consult, hran, hsucceeded, if_true]
    rfl

end

/-! ## Loads that a run does not tell apart -/

namespace Settings

variable {s s' : Settings} {launch : Launcher} {tree : Tree}

/-- What a run makes of its load: all that it takes from a fault is the exit status. -/
def effect (s : Settings) (tree : Tree) : Except Nat Table → Nat × Tree
  | .error status => (status, tree)
  | .ok table =>
    match s.kind.write s.root (s.kind.render table) tree with
    | (tree', .ok _) => (0, tree')
    | (tree', .error f) => (f.exitStatus, tree')

/-- The status and the tree of a run are its effect. -/
theorem run_eq_effect (hleaves : s.LeavesTree launch tree) :
    ((s.run launch tree).status, (s.run launch tree).tree) =
      s.effect tree ((s.load launch tree).mapError Fault.exitStatus) := by
  cases hload : s.load launch tree with
  | error f =>
    obtain ⟨htree, hresult⟩ := generate_of_load_error hleaves hload
    rw [run_status_of_error hresult, run_tree, htree]
    rfl
  | ok table =>
    have hwrite := generate_of_load_ok hleaves hload
    change _ = s.effect tree (.ok table)
    rw [effect, ← hwrite, run_tree]
    cases hresult : (s.generate launch tree).result with
    | error f => rw [run_status_of_error hresult]
    | ok path => rw [run_status_of_ok hresult]

/-- Runs of the same kind with the same root have the same status and the same tree if their loads differ in no
more than in how they call a fault. -/
theorem run_congr (hleaves : s.LeavesTree launch tree) (hleaves' : s'.LeavesTree launch tree)
    (hkind : s.kind = s'.kind) (hroot : s.root = s'.root)
    (hload : (s.load launch tree).mapError Fault.exitStatus = (s'.load launch tree).mapError Fault.exitStatus) :
    (s.run launch tree).status = (s'.run launch tree).status ∧
      (s.run launch tree).tree = (s'.run launch tree).tree := by
  have heffect : s.effect tree = s'.effect tree := by
    funext loaded
    cases loaded <;> simp [effect, hkind, hroot]
  refine Prod.mk.inj ?_
  rw [run_eq_effect hleaves, run_eq_effect hleaves', heffect, hload]

end Settings

/-! ## A program that prints a file -/

/-- The command that prints a file. -/
def Command.cat (path : Bytes) : Command := ⟨Utf8.encode "cat".toList, [path]⟩

/-- The launcher has a program that prints the file at a path of a tree, fails where there is nothing to be read, and
leaves the tree alone. -/
def Launcher.Prints (launch : Launcher) (tree : Tree) (path : Bytes) : Prop :=
  ∃ e, launch tree (.cat path) = .ran e ∧ e.tree = tree ∧
    match tree.readFile path with
    | .ok octets => e.ending.succeeded = true ∧ e.output = octets
    | .error _ => e.ending.succeeded = false

theorem Launcher.Prints.leavesTree {launch : Launcher} {tree : Tree} {path : Bytes} (h : launch.Prints tree path) :
    (Source.command (.cat path)).LeavesTree launch tree := by
  obtain ⟨e, hran, htree, -⟩ := h
  exact Source.leavesTree_command hran htree

/-- A listing and the command that prints it load alike. -/
theorem Launcher.Prints.load_alike {launch : Launcher} {tree : Tree} {path : Bytes} (h : launch.Prints tree path) :
    ((Source.listing path).load launch tree).mapError Fault.exitStatus =
      ((Source.command (.cat path)).load launch tree).mapError Fault.exitStatus := by
  obtain ⟨e, hran, -, hprints⟩ := h
  cases hread : tree.readFile path with
  | error f =>
    rw [hread] at hprints
    have hfailed : e.ending.succeeded = false := hprints
    simp only [Source.load, Source.consult, hread, hran, hfailed]
    rfl
  | ok octets =>
    rw [hread] at hprints
    have hlisting : (Source.listing path).Yields launch tree octets := hread
    have hcommand : (Source.command (.cat path)).Yields launch tree octets := ⟨e, hran, hprints⟩
    obtain ⟨reason, hload⟩ := hlisting.load_eq
    obtain ⟨reason', hload'⟩ := hcommand.load_eq
    rw [hload, hload']
    by_cases hutf8 : ∃ t, Utf8.encode t = octets
    · obtain ⟨t, rfl⟩ := hutf8
      rw [Table.ofOctets_encode, Table.ofOctets_encode]
    · rw [Table.ofOctets_of_not_utf8 hutf8, Table.ofOctets_of_not_utf8 hutf8]
      rfl

/-- The line of the command that prints a file whose path is a word. -/
theorem Command.ofLine_cat {f : Text} (h : IsWord f) :
    Command.ofLine ("cat ".toList ++ f) = some (.cat (Utf8.encode f)) := by
  have hcat : IsWord "cat".toList := isWord_of_all (by decide) (by decide)
  have hline : "cat ".toList ++ f = joinWords ["cat".toList, f] := by
    rw [joinWords_cons_cons, joinWords_singleton]
    rfl
  have hwords : words ("cat ".toList ++ f) = ["cat".toList, f] := by
    rw [hline]
    exact words_joinWords (List.forall_mem_cons.mpr ⟨hcat, List.forall_mem_singleton.mpr h⟩)
  exact Command.ofLine_of_words hwords

/-! ## Runs -/

section

variable {launch : Launcher} {tree : Tree} {f : Text}

/-- With a listing, or with the command that prints it, a request comes to the same. -/
theorem Settings.run_listing_eq_run_cat (hf : IsWord f) (hprints : launch.Prints tree (Utf8.encode f))
    {c c' : Request} {env : Environment} (hkind : c.kind = c'.kind) (hroot : c.root = c'.root)
    (hlisting : c.listing = some (Utf8.encode f)) (hlisting' : c'.listing = none)
    (hcommand' : c'.command = some ("cat ".toList ++ f)) :
    ((resolve c env).run launch tree).status = ((resolve c' env).run launch tree).status ∧
      ((resolve c env).run launch tree).tree = ((resolve c' env).run launch tree).tree := by
  have hsource : (resolve c env).tableSource = .ok (.listing (Utf8.encode f)) := by
    simp only [tableSource, resolve, chooseSource, hlisting]
  have hsource' : (resolve c' env).tableSource = .ok (.command (.cat (Utf8.encode f))) := by
    simp only [tableSource, resolve, chooseSource, hlisting', hcommand', Option.some_or, Option.getD_some,
      Command.ofLine_cat hf]
  have hleaves := leavesTree_of_tableSource hsource (Source.leavesTree_listing launch tree (Utf8.encode f))
  have hleaves' := leavesTree_of_tableSource hsource' hprints.leavesTree
  refine run_congr hleaves hleaves' hkind ?_ ?_
  · simp only [resolve, chooseRoot, hroot]
  · rw [load, load, hsource, hsource']
    exact hprints.load_alike

end

/-- **A listing and a command that prints the same are interchangeable.** Whatever octets they come to, either source is
unavailable exactly if the octets encode no text, and otherwise has the table, or the malformed row, of the text that
they encode. And with a program that prints files, a run with a listing at a path that is one word ends with the same
status and leaves the same tree as the run with the command in its place, whatever else is on the command line, in
whichever way the two options are spelled, and also where the path cannot be read. -/
theorem interchangeable_listing_command (launch : Launcher) (tree : Tree) :
    (∀ (octets : Bytes) (s : Source), s.Yields launch tree octets →
      ((∃ origin reason, s.load launch tree = .error (.sourceUnavailable origin reason)) ↔
        ¬∃ t, Utf8.encode t = octets) ∧
      ∀ t, Utf8.encode t = octets → s.load launch tree = Table.ofListing t) ∧
    ∀ f : Text, IsWord f → launch.Prints tree (Utf8.encode f) →
      ∀ g g' : Clause, g.gives = [.value .listing (Utf8.encode f)] →
        g'.gives = [.value .command (Utf8.encode ("cat ".toList ++ f))] →
      ∀ (program : Bytes) (before after : List Clause) (closing : Closing) (env : Environment),
        let line (g : Clause) : CommandLine := ⟨program, before ++ g :: after, closing⟩
        (run launch env (line g).arguments tree).status = (run launch env (line g').arguments tree).status ∧
          (run launch env (line g).arguments tree).tree = (run launch env (line g').arguments tree).tree := by
  constructor
  · intro octets s hs
    obtain ⟨reason, hload⟩ := hs.load_eq
    rw [hload]
    refine ⟨Table.ofOctets_unavailable_iff, ?_⟩
    rintro t rfl
    exact Table.ofOctets_encode _ _ t
  · intro f hf hprints g g' hg hg' program before after closing env line
    have hpath : Utf8.encode f ≠ [] := fun h => hf.1 (Utf8.encode_injective h)
    rcases CommandLine.listing_or_command hg hg' hpath program before after closing with
      ⟨c, h, h'⟩ | ⟨why, why', h, h'⟩
    · rw [run_of_request h, run_of_request h']
      exact Settings.run_listing_eq_run_cat hf hprints rfl rfl rfl rfl rfl
    · rw [run_of_stop h, run_of_stop h']
      exact ⟨rfl, rfl⟩

/-- A tree with a captured listing in it. -/
def capturedTree : Tree :=
  Tree.empty.put [] (Utf8.encode "codes".toList) (.file (Utf8.encode "EPERM 1 Not permitted\n".toList))

/-- The utilities print the captured listing, and it makes no difference which of them is asked for it. -/
theorem interchangeable_listing_command_captured :
    let launch := Utility.launch fun _ => none
    let listing : Clause := .apart .listing ⟨Utf8.encode "codes".toList, Or.inr (by decide)⟩
    let command : Clause := .joined .command (Utf8.encode "cat codes".toList)
    let line (g : Clause) : CommandLine := ⟨Utf8.encode "hosterrno".toList, [.verbose true, g], .kind .declarations⟩
    let outcome (g : Clause) : Outcome := run launch (fun _ => none) (line g).arguments capturedTree
    launch.Prints capturedTree (Utf8.encode "codes".toList) ∧
      (Source.listing (Utf8.encode "codes".toList)).load launch capturedTree =
        Table.ofListing "EPERM 1 Not permitted\n".toList ∧
      (outcome listing).status = (outcome command).status ∧ (outcome listing).tree = (outcome command).tree ∧
      (outcome listing).status = 0 := by
  intro launch listing command line outcome
  have hprints : launch.Prints capturedTree (Utf8.encode "codes".toList) :=
    ⟨⟨.exited 0, Utf8.encode "EPERM 1 Not permitted\n".toList, [], capturedTree⟩, rfl, rfl, rfl, rfl⟩
  obtain ⟨hload, hrun⟩ := interchangeable_listing_command launch capturedTree
  obtain ⟨-, hlisting⟩ := hload _ (.listing (Utf8.encode "codes".toList)) rfl
  obtain ⟨hstatus, htree⟩ := hrun "codes".toList (isWord_of_all (by decide) (by decide)) hprints listing command rfl rfl
    (Utf8.encode "hosterrno".toList) [.verbose true] [] (.kind .declarations) fun _ => none
  exact ⟨hprints, hlisting _ rfl, hstatus, htree, rfl⟩

end ErrnoBindings
