import ErrnoBindings.Artifact.Write
import ErrnoBindings.Proofs.Tree.Descent

/-!
# A write is all or nothing

A write goes through several requests to the system, and any of them can be refused: a file may be in the way of a
directory, a name or a path may be too long, and a directory may have the staging name or the artifact's own. What
the tree looks like afterwards depends on how far it got, and there are three cases (`Artifact.Writes`).

* Nothing was staged. Directories may have been added, and that is all.
* The file was staged and could not be given its name, because a directory has it. The staged file is gone again.
* The file was staged and given its name.

The bookkeeping is done on the view of the tree, and the main result is read off the three cases
(`Artifact.write_all_or_nothing`).
-/

namespace ErrnoBindings

namespace Tree

/-! ## Staging and renaming -/

section Publish

variable {t : Tree} {dir : Location} {staged name contents : Bytes}

/-- Only a directory is in the way of writing a file in a directory. -/
theorem writeEntry_eq_ok_iff :
    (t.writeEntry dir name contents).2 = .ok () ↔ t.get? (dir ++ [name]) ≠ some .directory := by
  rw [writeEntry]
  split <;> simp_all

/-- A file that can be written is written, and nothing else changes. -/
theorem writeEntry_of_free (hdir : t.get? dir = some .directory)
    (hname : t.get? (dir ++ [name]) ≠ some .directory) (contents : Bytes) :
    ∃ u, t.writeEntry dir name contents = (u, .ok ()) ∧
      ∀ l, u.get? l = if l = dir ++ [name] then some (.file contents) else t.get? l := by
  refine ⟨t.put dir name (.file contents), ?_, fun l => ?_⟩
  · rw [writeEntry, if_neg hname]
  · exact get?_put ⟨hdir, fun h => absurd h hname⟩ l

/-- A write that is refused leaves the tree as it was. -/
theorem eq_of_writeEntry_error {u : Tree} {e : SystemError} (h : t.writeEntry dir name contents = (u, .error e)) :
    u = t := by
  rw [writeEntry] at h
  split at h
  · cases h
    rfl
  · cases h

/-- A renaming that is refused leaves the tree as it was, too. -/
theorem eq_of_renameEntry_error {u : Tree} {old new : Bytes} {e : SystemError}
    (h : t.renameEntry dir old new = (u, .error e)) : u = t := by
  rw [renameEntry] at h
  split at h
  · cases h
    rfl
  · cases h
    rfl
  · split at h
    · cases h
      rfl
    · cases h

/-- Writing a file takes no directory away. -/
theorem get?_writeEntry_of_directory (hdir : t.get? dir = some .directory) {l : Location}
    (hl : t.get? l = some .directory) : (t.writeEntry dir name contents).1.get? l = some .directory := by
  by_cases hname : t.get? (dir ++ [name]) = some .directory
  · rw [writeEntry, if_pos hname]
    exact hl
  · obtain ⟨u, hwrite, hview⟩ := writeEntry_of_free hdir hname contents
    rw [hwrite, hview, if_neg]
    · exact hl
    · rintro rfl
      exact hname hl

/-- A file does not get the name of a directory. -/
theorem renameEntry_of_occupied (hstaged : t.get? (dir ++ [staged]) = some (.file contents))
    (hname : t.get? (dir ++ [name]) = some .directory) :
    t.renameEntry dir staged name = (t, .error .isADirectory) := by
  simp only [renameEntry, hstaged, if_pos hname]

/-- A file gets any other name: it stands there afterwards, and nothing has the name that it had. -/
theorem renameEntry_of_free (hdir : t.get? dir = some .directory)
    (hstaged : t.get? (dir ++ [staged]) = some (.file contents)) (hne : staged ≠ name)
    (hname : t.get? (dir ++ [name]) ≠ some .directory) :
    ∃ u, t.renameEntry dir staged name = (u, .ok ()) ∧
      ∀ l, u.get? l = if l = dir ++ [staged] then none
        else if l = dir ++ [name] then some (.file contents) else t.get? l := by
  have hput : ∀ l, (t.put dir name (.file contents)).get? l =
      if l = dir ++ [name] then some (.file contents) else t.get? l :=
    get?_put ⟨hdir, fun h => absurd h hname⟩
  have hapart : dir ++ [staged] ≠ dir ++ [name] := by simpa using hne
  refine ⟨(t.put dir name (.file contents)).removeFile (dir ++ [staged]), ?_, fun l => ?_⟩
  · simp only [renameEntry, hstaged, if_neg hname]
  · rw [get?_removeFile, hput]
    rw [hput, if_neg hapart, hstaged]
    simp

/-- A directory with the staging name stops the publishing before anything is written, and it is not unlinked. -/
theorem publish_of_unstaged (hstaged : t.get? (dir ++ [staged]) = some .directory) :
    t.publish dir staged name contents = (t, .error .isADirectory) := by
  rw [publish, writeEntry, if_pos hstaged]
  dsimp only
  rw [unlinkEntry, removeFile, dif_pos hstaged]

/-- A directory with the name of the file stops the publishing behind the staged write, and the staged file is
unlinked. -/
theorem publish_of_occupied (hdir : t.get? dir = some .directory)
    (hstaged : t.get? (dir ++ [staged]) ≠ some .directory) (hne : staged ≠ name)
    (hname : t.get? (dir ++ [name]) = some .directory) (contents : Bytes) :
    ∃ u, t.publish dir staged name contents = (u, .error .isADirectory) ∧
      ∀ l, u.get? l = if l = dir ++ [staged] then none else t.get? l := by
  obtain ⟨t₁, hwrite, hview⟩ := writeEntry_of_free hdir hstaged contents
  have hfile : t₁.get? (dir ++ [staged]) = some (.file contents) := by rw [hview, if_pos rfl]
  have hkept : t₁.get? (dir ++ [name]) = some .directory := by
    rw [hview, if_neg (by simpa using Ne.symm hne), hname]
  have hunlink : t₁.get? (dir ++ [staged]) ≠ some .directory := by
    rw [hfile]
    simp
  refine ⟨t₁.unlinkEntry dir staged, ?_, fun l => ?_⟩
  · simp only [publish, hwrite, renameEntry_of_occupied hfile hkept]
  · rw [unlinkEntry, get?_removeFile hunlink, hview]
    split <;> rfl

/-- With no directory of either name, the file is published: nothing has the staging name afterwards. -/
theorem publish_of_free (hdir : t.get? dir = some .directory)
    (hstaged : t.get? (dir ++ [staged]) ≠ some .directory) (hne : staged ≠ name)
    (hname : t.get? (dir ++ [name]) ≠ some .directory) (contents : Bytes) :
    ∃ u, t.publish dir staged name contents = (u, .ok ()) ∧
      ∀ l, u.get? l = if l = dir ++ [staged] then none
        else if l = dir ++ [name] then some (.file contents) else t.get? l := by
  obtain ⟨t₁, hwrite, hview⟩ := writeEntry_of_free hdir hstaged contents
  have hfile : t₁.get? (dir ++ [staged]) = some (.file contents) := by rw [hview, if_pos rfl]
  have hfree : t₁.get? (dir ++ [name]) ≠ some .directory := by
    rw [hview, if_neg (by simpa using Ne.symm hne)]
    exact hname
  have hparent : t₁.get? dir = some .directory := by rw [hview, if_neg (by simp), hdir]
  obtain ⟨u, hrename, hrenamed⟩ := renameEntry_of_free hparent hfile hne hfree
  refine ⟨u, ?_, fun l => ?_⟩
  · simp only [publish, hwrite, hrename]
  · rw [hrenamed, hview]
    split <;> rfl

end Publish

end Tree

namespace Artifact

/-! ## The two places in the directory -/

theorem steps_fileName (a : Artifact) :
    Path.steps (Utf8.encode a.fileName) = [.into (Utf8.encode a.fileName)] := by
  cases a <;> decide

theorem steps_stagingName (a : Artifact) :
    Path.steps (Utf8.encode a.stagingName) = [.into (Utf8.encode a.stagingName)] := by
  cases a <;> decide

theorem length_fileName_le (a : Artifact) : (Utf8.encode a.fileName).length ≤ Path.longestName := by
  cases a <;> decide

theorem length_stagingName_le (a : Artifact) : (Utf8.encode a.stagingName).length ≤ Path.longestName := by
  cases a <;> decide

theorem encode_stagingName_ne (a : Artifact) : Utf8.encode a.stagingName ≠ Utf8.encode a.fileName := by
  cases a <;> decide

/-- The destination is in the directory that was made for it. -/
theorem location_destination (a : Artifact) (root : Bytes) :
    Path.location (a.destination root) = Path.location (a.parentPath root) ++ [Utf8.encode a.fileName] := by
  rw [Path.location, destination_eq, Path.steps_append_separator, steps_fileName, Path.follow_append]
  rfl

/-- The staged file is in the same directory. -/
theorem location_stagingPath (a : Artifact) (root : Bytes) :
    Path.location (a.stagingPath root) = Path.location (a.parentPath root) ++ [Utf8.encode a.stagingName] := by
  rw [Path.location, stagingPath_eq, Path.steps_append_separator, steps_stagingName, Path.follow_append]
  rfl

theorem location_stagingPath_ne (a : Artifact) (root : Bytes) :
    Path.location (a.stagingPath root) ≠ Path.location (a.destination root) := by
  rw [location_stagingPath, location_destination]
  intro h
  obtain ⟨-, hname⟩ := List.append_inj' h rfl
  exact encode_stagingName_ne a (List.singleton_inj.mp hname)

/-- When the system looks at the staging path, it looks at the destination, which is shorter. -/
theorem check_destination {a : Artifact} {root : Bytes} (h : Path.check (a.stagingPath root) = .ok ()) :
    Path.check (a.destination root) = .ok () := by
  rw [Path.check_eq_ok_iff, stagingPath_eq] at h
  rw [Path.check_eq_ok_iff, destination_eq]
  obtain ⟨hnul, hlength⟩ := h
  have hname : 0 ∉ Utf8.encode a.fileName := by cases a <;> decide
  have hshorter : (Utf8.encode a.fileName).length ≤ (Utf8.encode a.stagingName).length := by cases a <;> decide
  constructor
  · intro hmem
    rcases List.mem_append.mp hmem with hparent | hbehind
    · exact hnul (List.mem_append_left _ hparent)
    · rcases List.mem_cons.mp hbehind with hseparator | hfile
      · exact absurd hseparator (by decide)
      · exact hname hfile
  · simp only [List.length_append, List.length_cons] at hlength ⊢
    omega

/-! ## How far a write gets -/

/-- The staged write of an artifact succeeds: the directories on the way are made, the last of them at `dir`, and in
the tree `t₁` that they leave nothing keeps the system from writing a file with the staging name in it. -/
structure Stages (a : Artifact) (root : Bytes) (contents : Text) (t t₁ : Tree) (dir : Location) : Prop where
  made : t.makeDirectories (a.parentPath root) = (t₁, .ok dir)
  check : Path.check (a.stagingPath root) = .ok ()
  written : (t₁.writeEntry dir (Utf8.encode a.stagingName) (Utf8.encode contents)).2 = .ok ()

/-- What a write can come to: the tree that it leaves and its answer. -/
inductive Writes (a : Artifact) (root : Bytes) (contents : Text) (t : Tree) : Tree × Except Fault Bytes → Prop where
  /-- nothing was staged, and all that was done is that directories were made -/
  | unstaged {u : Tree} {e : SystemError} (unstaged : ∀ t₁ dir, ¬ a.Stages root contents t t₁ dir)
      (grows : Tree.Grows (Path.Through (a.parentPath root)) t u) :
      Writes a root contents t (u, .error (a.unwritable root e))
  /-- a directory has the artifact's name, and the staged file was taken away again -/
  | unnamed {t₁ u : Tree} {dir : Location} {e : SystemError} (stages : a.Stages root contents t t₁ dir)
      (occupied : t₁.get? (Path.location (a.destination root)) = some .directory)
      (view : ∀ l, u.get? l = if l = Path.location (a.stagingPath root) then none else t₁.get? l) :
      Writes a root contents t (u, .error (a.unwritable root e))
  /-- the staged file was given its name -/
  | published {t₁ u : Tree} {dir : Location} (stages : a.Stages root contents t t₁ dir)
      (free : t₁.get? (Path.location (a.destination root)) ≠ some .directory)
      (view : ∀ l, u.get? l =
        if l = Path.location (a.stagingPath root) then none
        else if l = Path.location (a.destination root) then some (.file (Utf8.encode contents))
        else t₁.get? l) :
      Writes a root contents t (u, .ok (a.destination root))

/-- A write that stages nothing has made directories and is refused. -/
theorem writes_of_not_stages {a : Artifact} {root : Bytes} {contents : Text} {t : Tree}
    (h : ∀ t₁ dir, ¬ a.Stages root contents t t₁ dir) : a.Writes root contents t (a.write root contents t) := by
  have hgrows := Tree.grows_makeDirectories t (a.parentPath root)
  rcases hmade : t.makeDirectories (a.parentPath root) with ⟨t₁, e | dir⟩
  · rw [hmade] at hgrows
    rw [write, hmade]
    exact .unstaged h hgrows
  · rw [hmade] at hgrows
    rw [write, hmade]
    dsimp only
    cases hcheck : Path.check (a.stagingPath root) with
    | error e => exact .unstaged h hgrows
    | ok =>
      have hstaging : t₁.get? (dir ++ [Utf8.encode a.stagingName]) = some .directory := by
        refine Decidable.byContradiction fun hfree => ?_
        exact h t₁ dir ⟨hmade, hcheck, Tree.writeEntry_eq_ok_iff.mpr hfree⟩
      dsimp only
      rw [Tree.publish_of_unstaged hstaging]
      exact .unstaged h hgrows

/-- A write that stages its file gives it its name, or takes it away again if a directory has that name. -/
theorem writes_of_stages {a : Artifact} {root : Bytes} {contents : Text} {t t₁ : Tree} {dir : Location}
    (h : a.Stages root contents t t₁ dir) : a.Writes root contents t (a.write root contents t) := by
  obtain ⟨-, hdir, hlocation⟩ := Tree.makeDirectories_eq_ok h.made
  have hfree := Tree.writeEntry_eq_ok_iff.mp h.written
  have hstaging : Path.location (a.stagingPath root) = dir ++ [Utf8.encode a.stagingName] := by
    rw [location_stagingPath, hlocation]
  have hdestination : Path.location (a.destination root) = dir ++ [Utf8.encode a.fileName] := by
    rw [location_destination, hlocation]
  rw [write, h.made]
  simp only [h.check]
  by_cases hname : t₁.get? (dir ++ [Utf8.encode a.fileName]) = some .directory
  · obtain ⟨u, hpublish, hview⟩ :=
      Tree.publish_of_occupied hdir hfree (encode_stagingName_ne a) hname (Utf8.encode contents)
    rw [hpublish]
    rw [← hdestination] at hname
    rw [← hstaging] at hview
    exact .unnamed h hname hview
  · obtain ⟨u, hpublish, hview⟩ :=
      Tree.publish_of_free hdir hfree (encode_stagingName_ne a) hname (Utf8.encode contents)
    rw [hpublish]
    rw [← hdestination] at hname
    rw [← hstaging, ← hdestination] at hview
    exact .published h hname hview

/-- There are no other cases. -/
theorem writes_write (a : Artifact) (root : Bytes) (contents : Text) (t : Tree) :
    a.Writes root contents t (a.write root contents t) := by
  by_cases h : ∃ t₁ dir, a.Stages root contents t t₁ dir
  · obtain ⟨t₁, dir, hstages⟩ := h
    exact writes_of_stages hstages
  · exact writes_of_not_stages fun t₁ dir hstages => h ⟨t₁, dir, hstages⟩

/-! ## What follows from a staged write -/

namespace Stages

variable {a : Artifact} {root : Bytes} {contents : Text} {t t₁ u : Tree} {dir : Location}

/-- The tree that a file is staged in has what it had before, and directories on the way. -/
theorem grows (h : a.Stages root contents t t₁ dir) : Tree.Grows (Path.Through (a.parentPath root)) t t₁ := by
  have hgrows := Tree.grows_makeDirectories t (a.parentPath root)
  rwa [h.made] at hgrows

/-- No directory has the staging name. -/
theorem get?_staging_ne (h : a.Stages root contents t t₁ dir) :
    t₁.get? (Path.location (a.stagingPath root)) ≠ some .directory := by
  obtain ⟨-, -, hlocation⟩ := Tree.makeDirectories_eq_ok h.made
  rw [location_stagingPath, ← hlocation]
  exact Tree.writeEntry_eq_ok_iff.mp h.written

/-- The destination can be found wherever the directories are still there. -/
theorem locate_destination (h : a.Stages root contents t t₁ dir)
    (hkeeps : ∀ l, t₁.get? l = some .directory → u.get? l = some .directory) :
    u.locate (a.destination root) = .ok (Path.location (a.destination root)) := by
  obtain ⟨hwalk, hdir, hlocation⟩ := Tree.makeDirectories_eq_ok h.made
  have hcheck := check_destination h.check
  rw [location_destination, ← hlocation]
  rw [destination_eq] at hcheck ⊢
  have hwalk' := Tree.walk_of_keeps hkeeps hwalk
  exact Tree.locate_entry hwalk' (hkeeps dir hdir) (steps_fileName a) a.length_fileName_le hcheck

end Stages

/-! ## All or nothing -/

/-- What is true after a write that answers with a path. -/
structure Written (a : Artifact) (root : Bytes) (contents : Text) (t t' : Tree) (path : Bytes) : Prop where
  /-- the path is the destination -/
  path_eq : path = a.destination root
  /-- all of the contents are read there, and nothing else -/
  destination : t'.readFile path = .ok (Utf8.encode contents)
  /-- nothing is left where the file was staged -/
  staging : t'.get? (Path.location (a.stagingPath root)) = none
  /-- every other regular file is what it was, and there is no new one -/
  others : ∀ l c, l ≠ Path.location (a.destination root) → l ≠ Path.location (a.stagingPath root) →
    (t'.get? l = some (.file c) ↔ t.get? l = some (.file c))
  /-- every directory is still there -/
  directories : ∀ l, t.get? l = some .directory → t'.get? l = some .directory

/-- What is true after a write that answers with a fault. -/
structure Refused (a : Artifact) (root : Bytes) (contents : Text) (t t' : Tree) (f : Fault) : Prop where
  /-- the fault is that the destination cannot be written, and it names the destination -/
  fault : ∃ reason, f = .destinationUnwritable (a.destination root) reason
  /-- whatever stood at the destination stands there: the same file, or the directory -/
  destination : ∀ n, t.get? (Path.location (a.destination root)) = some n →
    t'.get? (Path.location (a.destination root)) = some n
  /-- no regular file is new or has new contents, anywhere -/
  files : ∀ l c, t'.get? l = some (.file c) → t.get? l = some (.file c)
  /-- nothing is left where the file was staged, if it was -/
  staging : (∃ t₁ dir, a.Stages root contents t t₁ dir) → t'.get? (Path.location (a.stagingPath root)) = none
  /-- if the file was staged, a directory keeps it from its name -/
  cause : (∃ t₁ dir, a.Stages root contents t t₁ dir) →
    t'.get? (Path.location (a.destination root)) = some .directory
  /-- every regular file is still there, but for one in the place of the staged file -/
  others : ∀ l c, l ≠ Path.location (a.stagingPath root) → t.get? l = some (.file c) → t'.get? l = some (.file c)
  /-- apart from that, the only differences are directories that were added on the way to the destination -/
  differences : ∀ l, t'.get? l = t.get? l ∨
    (t.get? l = none ∧ t'.get? l = some .directory ∧ Path.Through (a.parentPath root) l) ∨
    (l = Path.location (a.stagingPath root) ∧ (∃ c, t.get? l = some (.file c)) ∧ t'.get? l = none)

/-- The contents stand at the location of the destination. -/
theorem Written.get?_destination {a : Artifact} {root path : Bytes} {contents : Text} {t t' : Tree}
    (h : a.Written root contents t t' path) :
    t'.get? (Path.location (a.destination root)) = some (.file (Utf8.encode contents)) := by
  obtain ⟨l, hlocate, hfile⟩ := Tree.readFile_eq_ok_iff.mp h.destination
  rw [h.path_eq] at hlocate
  rwa [Tree.eq_location_of_locate hlocate] at hfile

namespace Refused

variable {a : Artifact} {root : Bytes} {contents : Text} {t t' : Tree} {f : Fault}

/-- No directory goes, since only a file can go. -/
theorem directories (h : a.Refused root contents t t' f) {l : Location} (hl : t.get? l = some .directory) :
    t'.get? l = some .directory := by
  rcases h.differences l with hsame | ⟨hnone, -, -⟩ | ⟨-, ⟨c, hfile⟩, -⟩
  · rw [hsame, hl]
  · rw [hnone] at hl
    cases hl
  · rw [hfile] at hl
    cases hl

end Refused

/-- What a published file leaves. -/
theorem written_of_published {a : Artifact} {root : Bytes} {contents : Text} {t t₁ u : Tree} {dir : Location}
    (hstages : a.Stages root contents t t₁ dir)
    (hfree : t₁.get? (Path.location (a.destination root)) ≠ some .directory)
    (hview : ∀ l, u.get? l =
      if l = Path.location (a.stagingPath root) then none
      else if l = Path.location (a.destination root) then some (.file (Utf8.encode contents))
      else t₁.get? l) :
    a.Written root contents t u (a.destination root) := by
  -- of the two places that the publishing touches, neither was a directory
  have hkeeps : ∀ l, t₁.get? l = some .directory → u.get? l = some .directory := by
    intro l hl
    have hstaging : l ≠ Path.location (a.stagingPath root) := fun h => hstages.get?_staging_ne (h ▸ hl)
    have hdestination : l ≠ Path.location (a.destination root) := fun h => hfree (h ▸ hl)
    rw [hview, if_neg hstaging, if_neg hdestination, hl]
  refine ⟨rfl, ?_, ?_, fun l c hdestination hstaging => ?_, fun l hl => ?_⟩
  · refine Tree.readFile_eq_ok_iff.mpr ⟨_, hstages.locate_destination hkeeps, ?_⟩
    rw [hview, if_neg (location_stagingPath_ne a root).symm, if_pos rfl]
  · rw [hview, if_pos rfl]
  · rw [hview, if_neg hstaging, if_neg hdestination]
    exact hstages.grows.file_iff
  · exact hkeeps l (hstages.grows.get?_of_some hl)

/-- What a write leaves that staged nothing. -/
theorem refused_of_unstaged {a : Artifact} {root : Bytes} {contents : Text} {t u : Tree} {e : SystemError}
    (hunstaged : ∀ t₁ dir, ¬ a.Stages root contents t t₁ dir)
    (hgrows : Tree.Grows (Path.Through (a.parentPath root)) t u) :
    a.Refused root contents t u (a.unwritable root e) where
  fault := ⟨_, rfl⟩
  destination _ := hgrows.get?_of_some
  files _ _ := hgrows.file_iff.mp
  staging := by
    rintro ⟨t₁, dir, hstages⟩
    exact absurd hstages (hunstaged t₁ dir)
  cause := by
    rintro ⟨t₁, dir, hstages⟩
    exact absurd hstages (hunstaged t₁ dir)
  others _ _ _ := hgrows.file_iff.mpr
  differences l := (hgrows l).imp id Or.inl

/-- What a write leaves that had to take the staged file away again. -/
theorem refused_of_unnamed {a : Artifact} {root : Bytes} {contents : Text} {t t₁ u : Tree} {dir : Location}
    {e : SystemError} (hstages : a.Stages root contents t t₁ dir)
    (hoccupied : t₁.get? (Path.location (a.destination root)) = some .directory)
    (hview : ∀ l, u.get? l = if l = Path.location (a.stagingPath root) then none else t₁.get? l) :
    a.Refused root contents t u (a.unwritable root e) where
  fault := ⟨_, rfl⟩
  destination n hn := by
    rw [hview, if_neg (location_stagingPath_ne a root).symm]
    exact hstages.grows.get?_of_some hn
  files l c hl := by
    rw [hview] at hl
    split at hl
    · cases hl
    · exact hstages.grows.file_iff.mp hl
  staging _ := by rw [hview, if_pos rfl]
  cause _ := by rw [hview, if_neg (location_stagingPath_ne a root).symm, hoccupied]
  others l c hl hfile := by
    rw [hview, if_neg hl]
    exact hstages.grows.file_iff.mpr hfile
  differences l := by
    by_cases hl : l = Path.location (a.stagingPath root)
    · have hnone : u.get? l = none := by rw [hview, if_pos hl]
      rcases hold : t.get? l with _ | _ | c
      · exact Or.inl hnone
      · -- a directory would have kept the file from being staged
        rw [hl] at hold
        exact absurd (hstages.grows.get?_of_some hold) hstages.get?_staging_ne
      · exact Or.inr (Or.inr ⟨hl, ⟨c, rfl⟩, hnone⟩)
    · have hsame : u.get? l = t₁.get? l := by rw [hview, if_neg hl]
      rw [hsame]
      exact (hstages.grows l).imp id Or.inl

/-- What a write leaves that answers with a path. -/
theorem written_of_write {a : Artifact} {root path : Bytes} {contents : Text} {t t' : Tree}
    (h : a.write root contents t = (t', .ok path)) : a.Written root contents t t' path := by
  have hwrites := writes_write a root contents t
  rw [h] at hwrites
  cases hwrites with
  | published hstages hfree hview => exact written_of_published hstages hfree hview

/-- What a write leaves that answers with a fault. -/
theorem refused_of_write {a : Artifact} {root : Bytes} {contents : Text} {t t' : Tree} {f : Fault}
    (h : a.write root contents t = (t', .error f)) : a.Refused root contents t t' f := by
  have hwrites := writes_write a root contents t
  rw [h] at hwrites
  cases hwrites with
  | unstaged hunstaged hgrows => exact refused_of_unstaged hunstaged hgrows
  | unnamed hstages hoccupied hview => exact refused_of_unnamed hstages hoccupied hview

/-- **A write is all or nothing.** In every tree, under every root and for any contents, it either answers with the
path of the destination, where all of the contents are then read, or with a fault that names the destination, and
then what stood at the destination stands there as before. Either way nothing that was staged is left, other files
are untouched and no directory goes. -/
theorem write_all_or_nothing (a : Artifact) (root : Bytes) (contents : Text) (t : Tree) :
    match a.write root contents t with
    | (t', .ok path) => a.Written root contents t t' path
    | (t', .error f) => a.Refused root contents t t' f := by
  have hwrites := writes_write a root contents t
  generalize a.write root contents t = r at hwrites ⊢
  cases hwrites with
  | unstaged hunstaged hgrows => exact refused_of_unstaged hunstaged hgrows
  | unnamed hstages hoccupied hview => exact refused_of_unnamed hstages hoccupied hview
  | published hstages hfree hview => exact written_of_published hstages hfree hview

end Artifact

end ErrnoBindings
