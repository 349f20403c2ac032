import ErrnoBindings.Command.Basic
import ErrnoBindings.Listing.Basic
import ErrnoBindings.Tree.Walk

/-!
# Sources

A table comes from one of three sources: it is there already, it is read from a captured listing, or a command is
run and what it prints is read. A listing file and a command that succeeds are read in the same way once their
octets are at hand (`Table.ofOctets`); they differ in the wording of the refusals before that.

Asking a source for its table (`Source.consult`) leaves the tree as it was, unless a command is run that changes
it; what the command said on standard error is kept beside the table.
-/

namespace ErrnoBindings

/-- Where a table comes from. -/
inductive Source where
  /-- a table that is there already -/
  | table (t : Table)
  /-- a captured listing at a path -/
  | listing (path : Bytes)
  /-- what a command prints -/
  | command (c : Command)
  deriving DecidableEq, Repr

/-- Reads octets as a listing, with the reason to give if they are not UTF-8. -/
def Table.ofOctets (origin : Text) (notUtf8 : Reason) (octets : Bytes) : Except Fault Table :=
  match Utf8.decode? octets with
  | none => .error (.sourceUnavailable origin notUtf8)
  | some text => Table.ofListing text

namespace Source

/-- What messages call the source. -/
def describe : Source → Text
  | table _ => "<in-memory table>".toList
  | listing path => Utf8.decodeLossy path
  | command c => c.describe

/-- What came of asking a source for its table. -/
structure Loading where
  /-- the table, or the fault -/
  table : Except Fault Table
  /-- what a command left on standard error -/
  chatter : Bytes
  /-- the tree afterwards -/
  tree : Tree

/-- Asks a source for its table. -/
def consult (launch : Launcher) (tree : Tree) : Source → Loading
  | table t => ⟨.ok t, [], tree⟩
  | listing path =>
    match tree.readFile path with
    | .error e => ⟨.error (.sourceUnavailable (describe (listing path)) (.system e)), [], tree⟩
    | .ok octets => ⟨Table.ofOctets (describe (listing path)) .listingNotUtf8 octets, [], tree⟩
  | command c =>
    match launch tree c with
    | .refused e => ⟨.error (.sourceUnavailable c.describe (.system e)), [], tree⟩
    | .ran e =>
      if e.ending.succeeded then ⟨Table.ofOctets c.describe .outputNotUtf8 e.output, e.errors, e.tree⟩
      else ⟨.error (.sourceUnavailable c.describe (.commandFailed e.ending)), e.errors, e.tree⟩

/-- The table of a source. -/
def load (launch : Launcher) (tree : Tree) (s : Source) : Except Fault Table := (s.consult launch tree).table

/-- Whether asking the source leaves the tree as it was. Only a command can do otherwise. -/
def LeavesTree (launch : Launcher) (tree : Tree) (s : Source) : Prop :=
  ∀ c e, s = .command c → launch tree c = .ran e → e.tree = tree

theorem leavesTree_table (launch : Launcher) (tree : Tree) (t : Table) : (table t).LeavesTree launch tree :=
  fun _ _ h => by cases h

theorem leavesTree_listing (launch : Launcher) (tree : Tree) (path : Bytes) :
    (listing path).LeavesTree launch tree :=
  fun _ _ h => by cases h

theorem leavesTree_command {launch : Launcher} {tree : Tree} {c : Command} {e : Execution}
    (hran : launch tree c = .ran e) (htree : e.tree = tree) : (command c).LeavesTree launch tree := by
  intro c' e' hc hran'
  cases hc
  rw [hran] at hran'
  cases hran'
  exact htree

theorem LeavesTree.consult_tree {launch : Launcher} {tree : Tree} {s : Source} (h : s.LeavesTree launch tree) :
    (s.consult launch tree).tree = tree := by
  unfold consult
  split
  · rfl
  · split <;> rfl
  · split
    · rfl
    · next e he =>
      split
      · exact h _ _ rfl he
      · exact h _ _ rfl he

end Source

/-- Octets that encode a text are read as this text is. -/
@[simp] theorem Table.ofOctets_encode (origin : Text) (reason : Reason) (t : Text) :
    Table.ofOctets origin reason (Utf8.encode t) = Table.ofListing t := by
  rw [ofOctets, Utf8.decode?_encode]

/-- Octets that are not read as a table are not UTF-8, or have a malformed row. -/
theorem Table.ofOctets_eq_error {origin : Text} {reason : Reason} {octets : Bytes} {f : Fault}
    (h : Table.ofOctets origin reason octets = .error f) :
    f = .sourceUnavailable origin reason ∨ ∃ n defect line span, f = .malformedRow n defect line span := by
  unfold Table.ofOctets at h
  split at h
  · cases h
    exact Or.inl rfl
  · obtain ⟨n, defect, line, span, _, hf⟩ := Table.ofListing_eq_error h
    exact Or.inr ⟨n, defect, line, span, hf⟩

/-- Loading fails in two ways only: nothing could be read from the source, or what was read is malformed. -/
theorem Source.load_eq_error {launch : Launcher} {tree : Tree} {s : Source} {f : Fault}
    (h : s.load launch tree = .error f) :
    (∃ reason, f = .sourceUnavailable s.describe reason) ∨
      ∃ n defect line span, f = .malformedRow n defect line span := by
  cases s with
  | table t => cases h
  | listing path =>
    rw [load, consult] at h
    split at h
    · cases h
      exact Or.inl ⟨_, rfl⟩
    · exact (Table.ofOctets_eq_error h).imp (fun hf => ⟨_, hf⟩) id
  | command c =>
    rw [load, consult] at h
    split at h
    · cases h
      exact Or.inl ⟨_, rfl⟩
    · split at h
      · exact (Table.ofOctets_eq_error h).imp (fun hf => ⟨_, hf⟩) id
      · cases h
        exact Or.inl ⟨_, rfl⟩

end ErrnoBindings
