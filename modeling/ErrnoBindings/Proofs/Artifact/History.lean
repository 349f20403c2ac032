import ErrnoBindings.Generate
import ErrnoBindings.Proofs.Artifact.Writing
import ErrnoBindings.Utility.Launcher

/-!
# Runs of writes

Artifacts are written again and again, under roots that may be spellings of one directory or lie within each
other's output, from sources that may not load, and any of the writes may be refused. What is in the tree after such
a run is accounted for by its successful writes (`History.Accounts`): a regular file was there from the beginning,
or is what the last successful write at its location put there.

All of it rests on nothing bearing a staging name between two actions. One action keeps that up, since whatever it
stages it renames or takes away again, and so its own staging name is the only place that it could have taken a
file from (`History.accounts_of_moves`). A run is one action after the other (`History.accounts_after`).
-/

namespace ErrnoBindings

/-- No regular file bears a staging name. -/
def Tree.Unstaged (t : Tree) : Prop :=
  ∀ dir c, ∀ a : Artifact, t.get? (dir ++ [Utf8.encode a.stagingName]) ≠ some (.file c)

/-- Something that writes an artifact under a root. -/
inductive Action where
  /-- an artifact is written with contents that are there already -/
  | write (a : Artifact) (root : Bytes) (contents : Text)
  /-- an artifact is generated from a source -/
  | generate (source : Source) (root : Bytes) (a : Artifact)
  deriving DecidableEq, Repr

namespace Action

/-- The artifact that is written. -/
def artifact : Action → Artifact
  | write a _ _ => a
  | generate _ _ a => a

/-- The root that it is written under. -/
def root : Action → Bytes
  | write _ root _ => root
  | generate _ root _ => root

/-- The contents that are to be written, unless the source for them does not load. -/
def contents (launch : Launcher) (t : Tree) : Action → Except Fault Text
  | write _ _ contents => .ok contents
  | generate source _ a => (source.load launch t).map a.render

/-- Performs an action in a tree: the tree afterwards, and the path that was written. -/
def perform (launch : Launcher) (t : Tree) : Action → Tree × Except Fault Bytes
  | write a root contents => a.write root contents t
  | generate source root a => ErrnoBindings.generate launch source root a t

/-- Whether all that an action does to the tree is to write: asking for its table leaves the tree as it was. Only a
command can do otherwise. -/
def LeavesTree (launch : Launcher) (t : Tree) : Action → Prop
  | write .. => True
  | generate source _ _ => source.LeavesTree launch t

variable {launch : Launcher} {t : Tree} {action : Action}

/-- Without contents nothing is done. -/
theorem perform_of_contents_error (hleaves : action.LeavesTree launch t) {f : Fault}
    (h : action.contents launch t = .error f) : action.perform launch t = (t, .error f) := by
  cases action with
  | write a root contents => cases h
  | generate source root a =>
    cases hload : source.load launch t with
    | ok table =>
      rw [contents, hload] at h
      cases h
    | error g =>
      rw [contents, hload] at h
      cases h
      have htree := Source.LeavesTree.consult_tree hleaves
      rw [perform, ErrnoBindings.generate, generateWith_of_load_error hload, htree]

/-- With contents they are written. -/
theorem perform_of_contents_ok (hleaves : action.LeavesTree launch t) {contents : Text}
    (h : action.contents launch t = .ok contents) :
    action.perform launch t = action.artifact.write action.root contents t := by
  cases action with
  | write a root contents =>
    cases h
    rfl
  | generate source root a =>
    cases hload : source.load launch t with
    | error f =>
      rw [Action.contents, hload] at h
      cases h
    | ok table =>
      rw [Action.contents, hload] at h
      cases h
      have htree := Source.LeavesTree.consult_tree hleaves
      rw [perform, ErrnoBindings.generate]
      rw [generateWith_of_load_ok hload, htree]
      rfl

end Action

/-! ## The history of a run -/

/-- What a run has come to. -/
structure History where
  /-- the tree -/
  tree : Tree
  /-- the successful writes, the last one first: where each went, and what it put there -/
  written : List (Location × Bytes)

namespace History

/-- A run that has not begun. -/
def start (t : Tree) : History := ⟨t, []⟩

/-- A run with one more action. If the action succeeds, it has written its contents where the path that it answers
with leads. -/
def next (launch : Launcher) (h : History) (action : Action) : History :=
  match action.perform launch h.tree, action.contents launch h.tree with
  | (t, .ok path), .ok contents => ⟨t, (Path.location path, Utf8.encode contents) :: h.written⟩
  | (t, _), _ => ⟨t, h.written⟩

/-- A run of actions, from a tree. -/
def after (launch : Launcher) (t : Tree) (actions : List Action) : History :=
  actions.foldl (next launch) (start t)

/-- What an action can do to a history. -/
inductive Moves (h : History) : History → Prop where
  /-- the source did not load -/
  | unloaded : Moves h h
  /-- the write was refused -/
  | refused {a : Artifact} {root : Bytes} {contents : Text} {t : Tree} {f : Fault}
      (refused : a.Refused root contents h.tree t f) : Moves h ⟨t, h.written⟩
  /-- the artifact was written -/
  | written {a : Artifact} {root path : Bytes} {contents : Text} {t : Tree}
      (written : a.Written root contents h.tree t path) :
      Moves h ⟨t, (Path.location (a.destination root), Utf8.encode contents) :: h.written⟩

/-- There is nothing else that an action can do. -/
theorem moves_next {launch : Launcher} {h : History} {action : Action} (hleaves : action.LeavesTree launch h.tree) :
    Moves h (h.next launch action) := by
  rw [next]
  cases hcontents : action.contents launch h.tree with
  | error f =>
    rw [Action.perform_of_contents_error hleaves hcontents]
    exact .unloaded
  | ok contents =>
    rw [Action.perform_of_contents_ok hleaves hcontents]
    rcases hwrite : action.artifact.write action.root contents h.tree with ⟨t, f | path⟩
    · exact .refused (Artifact.refused_of_write hwrite)
    · have hwritten := Artifact.written_of_write hwrite
      rw [hwritten.path_eq]
      exact .written hwritten

/-! ## What is in the tree -/

/-- The regular files in the tree are those of a tree `t` from the beginning, except where something was written. -/
structure Accounts (t : Tree) (h : History) : Prop where
  /-- no regular file bears a staging name -/
  unstaged : h.tree.Unstaged
  /-- every regular file is what was last written at its location, or, if nothing was ever written there, was there
  from the beginning -/
  origin : ∀ l c, h.tree.get? l = some (.file c) →
    Entries.find? l h.written = some c ∨ Entries.find? l h.written = none ∧ t.get? l = some (.file c)
  /-- whatever was last written at a location stands there -/
  written : ∀ l c, Entries.find? l h.written = some c → h.tree.get? l = some (.file c)
  /-- where a regular file was at the beginning, there is one -/
  stays : ∀ l, (∃ c, t.get? l = some (.file c)) → ∃ c, h.tree.get? l = some (.file c)

/-- A destination bears no staging name. -/
theorem location_destination_ne (a b : Artifact) (root : Bytes) (dir : Location) :
    Path.location (a.destination root) ≠ dir ++ [Utf8.encode b.stagingName] := by
  rw [Artifact.location_destination]
  intro h
  obtain ⟨-, hname⟩ := List.append_inj' h rfl
  have hne : Utf8.encode a.fileName ≠ Utf8.encode b.stagingName := by cases a <;> cases b <;> decide
  exact hne (List.singleton_inj.mp hname)

/-- Where no regular file bears a staging name, none stands where an artifact is staged. -/
theorem ne_stagingPath_of_unstaged {t : Tree} (ht : t.Unstaged) (a : Artifact) (root : Bytes) {l : Location} {c : Bytes}
    (hl : t.get? l = some (.file c)) : l ≠ Path.location (a.stagingPath root) := by
  rintro rfl
  rw [Artifact.location_stagingPath] at hl
  exact ht _ _ a hl

/-- A run that has not begun is accounted for. -/
theorem accounts_start {t : Tree} (ht : t.Unstaged) : Accounts t (start t) where
  unstaged := ht
  origin _ _ hl := Or.inr ⟨rfl, hl⟩
  written _ _ hl := by cases hl
  stays _ hl := hl

/-- **Step.** What an action does is accounted for. -/
theorem accounts_of_moves {t : Tree} {h h' : History} (hacc : Accounts t h) (hmoves : Moves h h') : Accounts t h' := by
  cases hmoves with
  | unloaded => exact hacc
  | @refused a root contents u f hrefused =>
    -- no file is new, and the only file that could have gone would have stood at the staging path
    have hkept : ∀ l c, h.tree.get? l = some (.file c) → u.get? l = some (.file c) := fun l c hl =>
      hrefused.others l c (ne_stagingPath_of_unstaged hacc.unstaged a root hl) hl
    refine ⟨fun dir c b hl => ?_, fun l c hl => ?_, fun l c hl => ?_, fun l hl => ?_⟩
    · exact hacc.unstaged dir c b (hrefused.files _ _ hl)
    · exact hacc.origin l c (hrefused.files l c hl)
    · exact hkept l c (hacc.written l c hl)
    · obtain ⟨c, hc⟩ := hacc.stays l hl
      exact ⟨c, hkept l c hc⟩
  | @written a root path contents u hwritten =>
    have hkept : ∀ l c, l ≠ Path.location (a.destination root) → h.tree.get? l = some (.file c) →
        u.get? l = some (.file c) := fun l c hdestination hl =>
      (hwritten.others l c hdestination (ne_stagingPath_of_unstaged hacc.unstaged a root hl)).mpr hl
    have hold : ∀ l c, l ≠ Path.location (a.destination root) → u.get? l = some (.file c) →
        h.tree.get? l = some (.file c) := by
      intro l c hdestination hl
      refine (hwritten.others l c hdestination fun hstaging => ?_).mp hl
      rw [hstaging, hwritten.staging] at hl
      cases hl
    refine ⟨fun dir c b hl => ?_, fun l c hl => ?_, fun l c hl => ?_, fun l hl => ?_⟩
    · exact hacc.unstaged dir c b (hold _ c (location_destination_ne a b root dir).symm hl)
    · by_cases hdestination : Path.location (a.destination root) = l
      · subst hdestination
        rw [hwritten.get?_destination] at hl
        cases hl
        exact Or.inl (if_pos rfl)
      · rw [Entries.find?, if_neg hdestination]
        exact hacc.origin l c (hold l c (Ne.symm hdestination) hl)
    · by_cases hdestination : Path.location (a.destination root) = l
      · subst hdestination
        rw [Entries.find?, if_pos rfl] at hl
        cases hl
        exact hwritten.get?_destination
      · rw [Entries.find?, if_neg hdestination] at hl
        exact hkept l c (Ne.symm hdestination) (hacc.written l c hl)
    · by_cases hdestination : l = Path.location (a.destination root)
      · exact ⟨_, hdestination ▸ hwritten.get?_destination⟩
      · obtain ⟨c, hc⟩ := hacc.stays l hl
        exact ⟨c, hkept l c hdestination hc⟩

/-- No action takes a directory away. -/
theorem directory_of_moves {h h' : History} (hmoves : Moves h h') {l : Location}
    (hl : h.tree.get? l = some .directory) : h'.tree.get? l = some .directory := by
  cases hmoves with
  | unloaded => exact hl
  | refused hrefused => exact hrefused.directories hl
  | written hwritten => exact hwritten.directories l hl

section

variable {launch : Launcher} {actions : List Action}

/-- **Run.** What a run does is accounted for, wherever it begins to be followed. -/
theorem accounts_foldl {t : Tree} {h : History} (hacc : Accounts t h)
    (hleaves : ∀ action ∈ actions, ∀ u, action.LeavesTree launch u) :
    Accounts t (actions.foldl (next launch) h) := by
  induction actions generalizing h with
  | nil => exact hacc
  | cons action actions ih =>
    obtain ⟨hfirst, hrest⟩ := List.forall_mem_cons.mp hleaves
    exact ih (accounts_of_moves hacc (moves_next (hfirst h.tree))) hrest

/-- No run takes a directory away. -/
theorem directory_foldl {h : History} {l : Location} (hl : h.tree.get? l = some .directory)
    (hleaves : ∀ action ∈ actions, ∀ u, action.LeavesTree launch u) :
    (actions.foldl (next launch) h).tree.get? l = some .directory := by
  induction actions generalizing h with
  | nil => exact hl
  | cons action actions ih =>
    obtain ⟨hfirst, hrest⟩ := List.forall_mem_cons.mp hleaves
    exact ih (directory_of_moves (moves_next (hfirst h.tree)) hl) hrest

end

/-- **No run of writes loses, mixes or leaks files.** From a tree in which no regular file bears a staging name,
after any number of actions, every regular file is accounted for, and every directory that was there at any time
before is still there. This holds with every launcher where contents and tables are there already or are read from
captured listings, and where commands are run, as long as these commands leave trees alone. -/
theorem accounts_after {launch : Launcher} {t : Tree} (ht : t.Unstaged) {earlier later : List Action}
    (hleaves : ∀ action ∈ earlier ++ later, ∀ u, action.LeavesTree launch u) :
    Accounts t (after launch t (earlier ++ later)) ∧
      ∀ l, (after launch t earlier).tree.get? l = some .directory →
        (after launch t (earlier ++ later)).tree.get? l = some .directory := by
  refine ⟨accounts_foldl (accounts_start ht) hleaves, fun l hl => ?_⟩
  rw [after, List.foldl_append]
  exact directory_foldl hl fun action haction => hleaves action (List.mem_append_right earlier haction)

/-! A captured listing, and a directory that is spelled in two ways: the artifact is written, generated over, and kept
through a root that leads through a file and a source that is a directory, while the other artifact is generated from
a table that is there already. -/

/-- A tree with a captured listing in it and nothing else. -/
def listingTree : Tree :=
  Tree.empty.put [] (Utf8.encode "codes".toList) (.file (Utf8.encode "EPERM 1 Not permitted\n".toList))

/-- Two writes at one location, the second from the captured listing. -/
def rewritten : List Action :=
  [.write .declarations (Utf8.encode "out".toList) "old".toList,
    .generate (.listing (Utf8.encode "codes".toList)) (Utf8.encode "out/./".toList) .declarations]

/-- A write under a file, a generation from a directory, and one from a table. -/
def refused : List Action :=
  [.write .definitions (Utf8.encode "codes".toList) "lost".toList,
    .generate (.listing (Utf8.encode "out".toList)) (Utf8.encode "out".toList) .declarations,
    .generate (.table ⟨[]⟩) (Utf8.encode "out".toList) .definitions]

theorem unstaged_listingTree : listingTree.Unstaged := by
  intro dir c a hfile
  have hsettable : Tree.empty.Settable [] (Utf8.encode "codes".toList)
      (.file (Utf8.encode "EPERM 1 Not permitted\n".toList)) := by decide
  rw [listingTree, Tree.get?_put hsettable] at hfile
  split at hfile
  · next hname =>
    obtain ⟨-, hname⟩ := List.append_inj' hname rfl
    have hne : Utf8.encode a.stagingName ≠ Utf8.encode "codes".toList := by cases a <;> decide
    exact hne (List.singleton_inj.mp hname)
  · rw [Tree.get?_of_ne_nil _ (by simp)] at hfile
    cases hfile

/-- Some utilities would change the tree, and none of these actions asks them to. -/
theorem accounts_after_refused :
    listingTree.Unstaged ∧ (∀ action ∈ rewritten ++ refused, ∀ u, action.LeavesTree Utility.bare u) ∧
      Accounts listingTree (after Utility.bare listingTree (rewritten ++ refused)) ∧
      (after Utility.bare listingTree (rewritten ++ refused)).tree.readFile
          (Utf8.encode "out/inc/host/errno.h".toList) =
        .ok (Utf8.encode (Artifact.declarations.render ⟨[⟨"EPERM".toList, 1, "Not permitted".toList⟩]⟩)) := by
  have hleaves : ∀ action ∈ rewritten ++ refused, ∀ u, action.LeavesTree Utility.bare u := by
    intro action haction u
    simp only [rewritten, refused, List.cons_append, List.nil_append, List.mem_cons, List.not_mem_nil, or_false]
      at haction
    rcases haction with rfl | rfl | rfl | rfl | rfl
    · trivial
    · exact Source.leavesTree_listing Utility.bare u _
    · trivial
    · exact Source.leavesTree_listing Utility.bare u _
    · exact Source.leavesTree_table Utility.bare u _
  exact ⟨unstaged_listingTree, hleaves, (accounts_after unstaged_listingTree hleaves).1, rfl⟩

end History

end ErrnoBindings
