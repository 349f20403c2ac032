import ErrnoBindings.Artifact.Basic
import ErrnoBindings.Fault.Basic
import ErrnoBindings.Tree.Directories

/-!
# Writing an artifact

An artifact is written under an output root, at a path that depends on the root and on the artifact only. The
directories on the way are made first. Then the file is *staged*: written under a name of its own beside its
destination, and renamed over it. A reader of the destination therefore sees the old file or the new one and never
half of it, and when the renaming fails the staged file is taken away again.

Three requests go to the system behind the making of directories: to write an entry, to rename an entry, and to
unlink one. Each of them does what it says or leaves the tree as it was.
-/

namespace ErrnoBindings

namespace Tree

/-- Writes a regular file in a directory, over one that stands there. A directory of that name is in the way. -/
def writeEntry (t : Tree) (dir : Location) (name contents : Bytes) : Tree × Except SystemError Unit :=
  if t.get? (dir ++ [name]) = some .directory then (t, .error .isADirectory)
  else (t.put dir name (.file contents), .ok ())

/-- Gives a regular file another name in its directory, over a file that has it. A directory of that name is in
the way. -/
def renameEntry (t : Tree) (dir : Location) (old new : Bytes) : Tree × Except SystemError Unit :=
  match t.get? (dir ++ [old]) with
  | none => (t, .error .notFound)
  | some .directory => (t, .error .isADirectory)
  | some (.file contents) =>
    if t.get? (dir ++ [new]) = some .directory then (t, .error .isADirectory)
    else ((t.put dir new (.file contents)).removeFile (dir ++ [old]), .ok ())

/-- Takes a regular file away from a directory. -/
def unlinkEntry (t : Tree) (dir : Location) (name : Bytes) : Tree := t.removeFile (dir ++ [name])

/-- Writes a file under a staging name and renames it. If either is refused, what may have been staged is unlinked
and the refusal stands. -/
def publish (t : Tree) (dir : Location) (staged name contents : Bytes) : Tree × Except SystemError Unit :=
  match t.writeEntry dir staged contents with
  | (t₁, .error e) => (t₁.unlinkEntry dir staged, .error e)
  | (t₁, .ok ()) =>
    match t₁.renameEntry dir staged name with
    | (t₂, .error e) => (t₂.unlinkEntry dir staged, .error e)
    | (t₂, .ok ()) => (t₂, .ok ())

end Tree

namespace Artifact

/-- The path at which the artifact is written under a root. -/
def destination (a : Artifact) (root : Bytes) : Bytes := Path.join root (Utf8.encode a.relativePath)

/-- The path of the directory that the artifact is written in. -/
def parentPath (a : Artifact) (root : Bytes) : Bytes := Path.join root (Utf8.encode a.folder)

/-- The path at which the artifact is staged: beside its destination. -/
def stagingPath (a : Artifact) (root : Bytes) : Bytes :=
  Path.join root (Utf8.encode (a.folder ++ '/' :: a.stagingName))

/-- The destination is the artifact's name behind the path of its directory. -/
theorem destination_eq (a : Artifact) (root : Bytes) :
    a.destination root = a.parentPath root ++ Path.separator :: Utf8.encode a.fileName := by
  rw [destination, parentPath, relativePath_eq, Utf8.encode_append, Utf8.encode_cons, Path.join_append]
  rfl

/-- The staging path is the staging name behind the path of the same directory. -/
theorem stagingPath_eq (a : Artifact) (root : Bytes) :
    a.stagingPath root = a.parentPath root ++ Path.separator :: Utf8.encode a.stagingName := by
  rw [stagingPath, parentPath, Utf8.encode_append, Utf8.encode_cons, Path.join_append]
  rfl

/-- The fault of a write that the system refused. -/
def unwritable (a : Artifact) (root : Bytes) (e : SystemError) : Fault :=
  .destinationUnwritable (a.destination root) (.system e)

/-- Writes an artifact under a root: the tree afterwards, and the path that was written. -/
def write (a : Artifact) (root : Bytes) (contents : Text) (t : Tree) : Tree × Except Fault Bytes :=
  match t.makeDirectories (a.parentPath root) with
  | (t₁, .error e) => (t₁, .error (a.unwritable root e))
  | (t₁, .ok dir) =>
    match Path.check (a.stagingPath root) with
    | .error e => (t₁, .error (a.unwritable root e))
    | .ok () =>
      match t₁.publish dir (Utf8.encode a.stagingName) (Utf8.encode a.fileName) (Utf8.encode contents) with
      | (t₂, .error e) => (t₂, .error (a.unwritable root e))
      | (t₂, .ok ()) => (t₂, .ok (a.destination root))

/-- The path that a write answers with is the destination. -/
theorem write_eq_ok {a : Artifact} {root : Bytes} {contents : Text} {t t' : Tree} {path : Bytes}
    (h : a.write root contents t = (t', .ok path)) : path = a.destination root := by
  unfold write at h
  split at h
  · cases h
  · split at h
    · cases h
    · split at h
      · cases h
      · cases h
        rfl

/-- The fault of a write names the destination. -/
theorem write_eq_error {a : Artifact} {root : Bytes} {contents : Text} {t t' : Tree} {f : Fault}
    (h : a.write root contents t = (t', .error f)) : ∃ e, f = a.unwritable root e := by
  unfold write at h
  split at h
  · cases h
    exact ⟨_, rfl⟩
  · split at h
    · cases h
      exact ⟨_, rfl⟩
    · split at h
      · cases h
        exact ⟨_, rfl⟩
      · cases h

end Artifact

end ErrnoBindings
