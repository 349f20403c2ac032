import ErrnoBindings.Artifact.Render
import ErrnoBindings.Artifact.Write
import ErrnoBindings.Source

/-!
# Generating an artifact

To generate an artifact is to load a table, render the artifact, and write it, each of them only if what comes
before it succeeded. Nothing in the tree is touched before the table is loaded, except by the command that is run
for it.

An observer may follow along: it is told of each stage as it is finished, and keeps whatever it likes. It cannot
influence anything, and `generate` is generation with an observer that keeps nothing.
-/

namespace ErrnoBindings

/-- A stage of a generation that is finished. -/
inductive Stage where
  /-- the table was loaded from its source -/
  | loaded (source : Source) (table : Table)
  /-- the text was rendered -/
  | rendered (contents : Text)
  /-- the artifact was written -/
  | written (path : Bytes)
  deriving DecidableEq, Repr

/-- The stages that are finished once a table is loaded, in order: it is rendered in any case, and written if the
write answers with a path. -/
def Stage.finished (source : Source) (table : Table) (contents : Text) : Except Fault Bytes → List Stage
  | .ok path => [.loaded source table, .rendered contents, .written path]
  | .error _ => [.loaded source table, .rendered contents]

/-- What a generation leaves behind. -/
structure Generation (σ : Type) where
  /-- what the observer kept -/
  observed : σ
  /-- what a command that was run left on standard error -/
  chatter : Bytes
  /-- the tree afterwards -/
  tree : Tree
  /-- the path that was written, or the fault -/
  result : Except Fault Bytes

/-- Loads, renders and writes, and tells an observer of each finished stage. -/
def generateWith {σ : Type} (observe : σ → Stage → σ) (start : σ) (launch : Launcher) (source : Source)
    (root : Bytes) (a : Artifact) (tree : Tree) : Generation σ :=
  let loading := source.consult launch tree
  match loading.table with
  | .error f => ⟨start, loading.chatter, loading.tree, .error f⟩
  | .ok table =>
    let rendered := observe (observe start (.loaded source table)) (.rendered (a.render table))
    match a.write root (a.render table) loading.tree with
    | (tree', .error f) => ⟨rendered, loading.chatter, tree', .error f⟩
    | (tree', .ok path) => ⟨observe rendered (.written path), loading.chatter, tree', .ok path⟩

/-- Loads, renders and writes. -/
def generate (launch : Launcher) (source : Source) (root : Bytes) (a : Artifact) (tree : Tree) :
    Tree × Except Fault Bytes :=
  let g := generateWith (fun u _ => u) () launch source root a tree
  (g.tree, g.result)

section

variable {σ : Type} {observe : σ → Stage → σ} {start : σ} {launch : Launcher} {source : Source} {tree : Tree}

/-- After a table that does not load, everything is as the loading left it. -/
theorem generateWith_of_load_error {f : Fault} (h : source.load launch tree = .error f) (root : Bytes)
    (a : Artifact) :
    generateWith observe start launch source root a tree =
      ⟨start, (source.consult launch tree).chatter, (source.consult launch tree).tree, .error f⟩ := by
  have h' : (source.consult launch tree).table = .error f := h
  rw [generateWith]
  simp only [h']

/-- A generation whose table is loaded, as a whole: the observer is told of the finished stages, and the rest is the
write. -/
theorem generateWith_eq_of_load_ok {table : Table} (h : source.load launch tree = .ok table) (root : Bytes)
    (a : Artifact) :
    generateWith observe start launch source root a tree =
      let written := a.write root (a.render table) (source.consult launch tree).tree
      ⟨(Stage.finished source table (a.render table) written.2).foldl observe start,
        (source.consult launch tree).chatter, written.1, written.2⟩ := by
  have htable : (source.consult launch tree).table = .ok table := h
  rw [generateWith]
  simp only [htable]
  rcases a.write root (a.render table) (source.consult launch tree).tree with ⟨t', f | path⟩
  · rfl
  · rfl

/-- Once the table is loaded, the tree and the result are those of writing what it renders to. -/
theorem generateWith_of_load_ok {table : Table} (h : source.load launch tree = .ok table) (root : Bytes)
    (a : Artifact) :
    ((generateWith observe start launch source root a tree).tree,
      (generateWith observe start launch source root a tree).result) =
        a.write root (a.render table) (source.consult launch tree).tree := by
  rw [generateWith_eq_of_load_ok h]

end

end ErrnoBindings
