import ErrnoBindings.Generate

/-!
# The stages of a generation

A generation loads, renders and writes, and tells its observer of each stage as it is finished. Which stages are
finished is settled by two answers alone: that of the source, and that of the write of what its table renders to
(`Stage.finished`). What the observer keeps is what the finished stages, one after the other, make of its start, and
nothing else of the generation depends on the observer (`generateWith_eq_of_load_ok`).

Before the table is loaded, nothing is touched and nobody is told of anything. This also holds where the listing that
is read is itself the file that is about to be written, or the one that is staged for it: it is read to its end before
anything is written (`generateWith_stages`).
-/

namespace ErrnoBindings

section

variable {σ : Type} (observe : σ → Stage → σ) (start : σ) {launch : Launcher} {source : Source} {tree : Tree}

/-- Generation without an observer to speak of is generation with any observer. -/
theorem generate_eq_generateWith (root : Bytes) (a : Artifact) :
    generate launch source root a tree =
      ((generateWith observe start launch source root a tree).tree,
        (generateWith observe start launch source root a tree).result) := by
  rw [generate]
  cases hload : source.load launch tree with
  | error f => simp only [generateWith_of_load_error hload]
  | ok table => simp only [generateWith_eq_of_load_ok hload]

/-- **A generation loads first, and what it does then is to write.** If the source, which leaves the tree alone, has
no table, the generation ends in its fault, the tree is as it was, and the observer is told of nothing. If it has
one, the tree and the answer are those of the write of what the table renders to, and the observer is told of
exactly the stages that this write lets finish. The generation that nobody observes comes to the same in every
case. -/
theorem generateWith_stages (h : source.LeavesTree launch tree) (root : Bytes) (a : Artifact) :
    let g := generateWith observe start launch source root a tree
    (∀ f, source.load launch tree = .error f → g.result = .error f ∧ g.tree = tree ∧ g.observed = start) ∧
    (∀ table, source.load launch tree = .ok table →
      let written := a.write root (a.render table) tree
      (g.tree, g.result) = written ∧
      g.observed = (Stage.finished source table (a.render table) written.2).foldl observe start) ∧
    generate launch source root a tree = (g.tree, g.result) := by
  have htree := h.consult_tree
  refine ⟨?_, ?_, generate_eq_generateWith observe start root a⟩
  · intro f hload
    rw [generateWith_of_load_error hload]
    exact ⟨rfl, htree, rfl⟩
  · intro table hload
    rw [generateWith_eq_of_load_ok hload, htree]
    exact ⟨rfl, rfl⟩

end

/-- A tree in which a captured listing stands where the declarations are staged. -/
def stagedTree : Tree :=
  ((Tree.empty.makeDirectories (Utf8.encode "inc/host".toList)).1).put
    [Utf8.encode "inc".toList, Utf8.encode "host".toList] (Utf8.encode ".errno.h.tmp".toList)
    (.file (Utf8.encode "EPERM 1 Not permitted\n".toList))

/-- The listing in the place of the staged file is read before it is overwritten, and is gone afterwards. -/
theorem generateWith_stages_staged :
    let source := Source.listing (Utf8.encode "inc/host/.errno.h.tmp".toList)
    let table : Table := ⟨[⟨"EPERM".toList, 1, "Not permitted".toList⟩]⟩
    let tell (told : List Stage) (stage : Stage) : List Stage := told ++ [stage]
    let g := generateWith tell [] .offline source (Utf8.encode ".".toList) .declarations stagedTree
    source.LeavesTree .offline stagedTree ∧ source.load .offline stagedTree = .ok table ∧
      g.observed = [.loaded source table, .rendered (Artifact.declarations.render table),
        .written (Utf8.encode "./inc/host/errno.h".toList)] ∧
      g.tree.readFile (Utf8.encode "inc/host/.errno.h.tmp".toList) = .error .notFound := by
  intro source table tell g
  have hleaves : source.LeavesTree .offline stagedTree := Source.leavesTree_listing _ _ _
  have hload : source.load .offline stagedTree = .ok table := rfl
  obtain ⟨-, hloaded, -⟩ := generateWith_stages tell [] hleaves (Utf8.encode ".".toList) .declarations
  obtain ⟨-, hobserved⟩ := hloaded table hload
  exact ⟨hleaves, hload, hobserved, rfl⟩

end ErrnoBindings
