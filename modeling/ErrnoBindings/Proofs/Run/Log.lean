import ErrnoBindings.Proofs.Listing.Canonical
import ErrnoBindings.Proofs.Run.Course
import ErrnoBindings.Proofs.Table.Duplicates
import ErrnoBindings.Proofs.Text.Utf8

/-!
# The log of a run

On standard error a run says what it does and what it finds odd, a line for each notice. Whoever reads the log takes it
apart into lines again, and keeps those that begin as notices do. This module shows that nothing is lost and nothing
is added on the way, so that the log has the notices of the run and no others (`Outcome.log_eq_notices`).

It takes two things. Each notice is a line as it stands: symbols have no blank in them since they are read from a
listing (`Settings.canonical_of_load`), and the path that is written ends in the name of a file, whatever octets stand
before it (`Artifact.isLine_destination`). And the command that is run for the listing says nothing itself
(`Settings.Silent`).
-/

namespace ErrnoBindings

/-! ## Notices are lines -/

namespace Notice

theorem newline_notMem_mark (n : Notice) : '\n' ∉ n.mark := by
  have hmarks : ∀ m ∈ marks, '\n' ∉ m := by decide
  exact hmarks n.mark n.mark_mem_marks

/-- A notice is a line if what stands behind its mark is one. -/
theorem isLine_text {n : Notice} (h : IsLine n.body) (hne : n.body ≠ []) : IsLine n.text :=
  h.append n.newline_notMem_mark hne

end Notice

theorem newline_notMem_decimal (n : Nat) : '\n' ∉ decimal n :=
  fun h => absurd (isDigit_of_mem_decimal h) (by decide)

theorem Notice.isLine_read {origin : Text} (h : '\n' ∉ origin) (rows : Nat) : IsLine (read rows origin).text := by
  have hend : IsLine "`".toList := by decide
  have hbefore : '\n' ∉ "read ".toList ++ decimal rows ++ " rows from `".toList ++ origin := by
    simp only [List.mem_append, not_or]
    exact ⟨⟨⟨by decide, newline_notMem_decimal rows⟩, by decide⟩, h⟩
  exact isLine_text (hend.append hbefore (by decide)) (List.append_ne_nil_of_right_ne_nil _ (by decide))

theorem Notice.isLine_repeated {symbol : Text} (h : '\n' ∉ symbol) (count : Nat) :
    IsLine (repeated symbol count).text := by
  have hend : IsLine " returns the first description".toList := by decide
  have hbefore : '\n' ∉ "`".toList ++ symbol ++ "` appears ".toList ++ decimal count ++
      " times in the error table; every row is emitted and ".toList ++ strerrorFunction := by
    simp only [List.mem_append, not_or]
    exact ⟨⟨⟨⟨⟨by decide, h⟩, by decide⟩, newline_notMem_decimal count⟩, by decide⟩, by decide⟩
  exact isLine_text (hend.append hbefore (by decide)) (List.append_ne_nil_of_right_ne_nil _ (by decide))

/-- What is shown of a destination ends in a letter. -/
theorem Artifact.exists_decodeLossy_destination (a : Artifact) (root : Bytes) :
    ∃ shown c, Utf8.decodeLossy (a.destination root) = shown ++ [c] ∧ c ≠ '\r' := by
  have hlast : ∃ before last, Utf8.encode a.fileName = before ++ [last] ∧ last.toNat < 0x80 ∧
      Char.ofNat last.toNat ≠ '\r' := by
    cases a with
    | declarations => exact ⟨Utf8.encode "errno.".toList, 0x68, rfl, by decide, by decide⟩
    | definitions => exact ⟨Utf8.encode "errno.".toList, 0x63, rfl, by decide, by decide⟩
  obtain ⟨before, last, hname, hascii, hne⟩ := hlast
  rw [destination_eq, hname, ← List.cons_append, ← List.append_assoc, Utf8.decodeLossy_concat hascii]
  exact ⟨_, _, rfl, hne⟩

theorem Artifact.isLine_destination {a : Artifact} {root : Bytes}
    (h : '\n' ∉ Utf8.decodeLossy (a.destination root)) :
    IsLine (Utf8.decodeLossy (a.destination root)) ∧ Utf8.decodeLossy (a.destination root) ≠ [] := by
  obtain ⟨shown, c, hshown, hne⟩ := a.exists_decodeLossy_destination root
  refine ⟨⟨h, ?_⟩, ?_⟩
  · rw [hshown, List.getLast?_concat]
    exact fun heq => hne (Option.some.inj heq)
  · rw [hshown]
    exact List.append_ne_nil_of_right_ne_nil _ (List.cons_ne_nil _ _)

theorem Notice.isLine_wrote {a : Artifact} {root : Bytes} (h : '\n' ∉ Utf8.decodeLossy (a.destination root)) :
    IsLine (wrote a (a.destination root)).text := by
  obtain ⟨hend, hne⟩ := Artifact.isLine_destination h
  have hbefore : '\n' ∉ "wrote ".toList ++ a.name ++ " to ".toList := by
    cases a <;> decide
  exact isLine_text (hend.append hbefore hne) (List.append_ne_nil_of_right_ne_nil _ hne)

/-- If nothing else was said, and every notice is a line, the log has the notices. -/
theorem Outcome.log_eq_notices {o : Outcome} (hchatter : o.chatter = []) (hlines : ∀ n ∈ o.notices, IsLine n.text) :
    o.log = o.notices.map Notice.text := by
  have herrors : o.errors = unlines (o.notices.map Notice.text) := by
    rw [errors, hchatter]
    rfl
  have htaken : lines o.errors = o.notices.map Notice.text := by
    rw [herrors]
    exact lines_unlines (List.forall_mem_map.mpr hlines)
  rw [log, markedLines, htaken, List.filter_eq_self]
  exact List.forall_mem_map.mpr fun n _ => isMarked_text n

/-- The notices on a table that is loaded are lines, for a repeated symbol of a canonical table is a word. -/
theorem Progress.isLine_of_mem_noticesOnLoading {source : Source} {table : Table} (htable : table.Canonical)
    (hdescribe : '\n' ∉ source.describe) {verbose : Bool} {n : Notice}
    (hn : n ∈ noticesOnLoading verbose source table) :
    IsLine n.text := by
  rcases List.mem_append.mp hn with hn | hn
  · cases verbose with
    | false => cases hn
    | true =>
      rw [List.mem_singleton.mp hn]
      exact Notice.isLine_read hdescribe _
  · obtain ⟨⟨symbol, count⟩, hmem, rfl⟩ := List.mem_map.mp hn
    obtain ⟨r, hr, rfl⟩ := Table.exists_row_of_mem_duplicates hmem
    obtain ⟨hsymbol, -⟩ := htable r hr
    exact Notice.isLine_repeated hsymbol.isLine.1 count

/-! ## What is loaded, and what is said meanwhile -/

theorem Table.canonical_ofOctets {origin : Text} {reason : Reason} {octets : Bytes} {t : Table}
    (h : ofOctets origin reason octets = .ok t) : t.Canonical := by
  rw [ofOctets] at h
  split at h
  · cases h
  · exact canonical_ofListing h

/-- A table that is not there already is read from octets. -/
theorem Source.canonical_of_load {launch : Launcher} {tree : Tree} {s : Source} {t : Table}
    (h : s.load launch tree = .ok t) (hs : ∀ t, s ≠ .table t) : t.Canonical := by
  cases s with
  | table t => exact absurd rfl (hs t)
  | listing path =>
    rw [load, consult] at h
    split at h
    · cases h
    · exact Table.canonical_ofOctets h
  | command c =>
    rw [load, consult] at h
    split at h
    · cases h
    · split at h
      · exact Table.canonical_ofOctets h
      · cases h

/-- A source says nothing if the command that it runs says nothing. -/
theorem Source.chatter_consult {launch : Launcher} {tree : Tree} {s : Source}
    (h : ∀ c e, s = .command c → launch tree c = .ran e → e.errors = []) : (s.consult launch tree).chatter = [] := by
  cases s with
  | table t => rfl
  | listing path =>
    rw [consult]
    split <;> rfl
  | command c =>
    rw [consult]
    split
    · rfl
    · next e hran =>
      have hsilent := h c e rfl hran
      split
      · exact hsilent
      · exact hsilent

namespace Settings

variable {s : Settings} {launch : Launcher} {tree : Tree}

/-- Settings name no table that is there already. -/
theorem tableSource_ne_table {source : Source} (h : s.tableSource = .ok source) (t : Table) : source ≠ .table t := by
  rintro rfl
  rw [tableSource] at h
  split at h
  · cases h
  · split at h <;> cases h

theorem canonical_of_load {source : Source} {table : Table} (hsource : s.tableSource = .ok source)
    (hload : source.load launch tree = .ok table) : table.Canonical :=
  Source.canonical_of_load hload (tableSource_ne_table hsource)

/-- The command that is run for the listing, if one is run, leaves nothing on standard error. -/
def Silent (s : Settings) (launch : Launcher) (tree : Tree) : Prop :=
  ∀ c e, s.tableSource = .ok (.command c) → launch tree c = .ran e → e.errors = []

theorem Silent.chatter_eq_nil (h : s.Silent launch tree) : (s.loading launch tree).chatter = [] := by
  cases hsource : s.tableSource with
  | error f => rw [loading_of_sourceless hsource]
  | ok source =>
    rw [loading_of_tableSource hsource]
    refine Source.chatter_consult fun c e hc hran => h c e ?_ hran
    rw [hsource, hc]

end Settings

/-! ## What the log tells -/

/-- A list has the repeated symbols of a table, with the numbers of their rows. -/
structure Table.Repetitions (t : Table) (repetitions : List (Text × Nat)) : Prop where
  /-- a symbol is there with a number exactly when that many rows carry it, and more than one does -/
  counted : ∀ symbol n, (symbol, n) ∈ repetitions ↔ t.rows.countP (·.symbol = symbol) = n ∧ 1 < n
  /-- they stand in the order in which they come first in the table, and so none of them stands there twice -/
  ordered : repetitions.Pairwise fun p q => t.symbols.idxOf p.1 < t.symbols.idxOf q.1

theorem Table.repetitions_duplicates (t : Table) : t.Repetitions t.duplicates :=
  ⟨fun _ _ => mem_duplicates_iff, ordered_duplicates t⟩

/-- There is only one such list. -/
theorem Table.Repetitions.unique {t : Table} {ps qs : List (Text × Nat)} (hps : t.Repetitions ps)
    (hqs : t.Repetitions qs) : ps = qs := by
  have hnodup : ∀ {rs : List (Text × Nat)}, t.Repetitions rs → rs.Nodup := fun h =>
    h.ordered.imp fun hlt heq => by
      rw [heq] at hlt
      exact Nat.lt_irrefl _ hlt
  have hperm : ps.Perm qs := by
    refine (List.perm_ext_iff_of_nodup (hnodup hps) (hnodup hqs)).mpr ?_
    rintro ⟨symbol, n⟩
    rw [hps.counted, hqs.counted]
  exact hperm.eq_of_pairwise (fun p q _ _ hlt hgt => absurd hlt (Nat.lt_asymm hgt)) hps.ordered hqs.ordered

namespace Outcome

/-- What the log of a run tells of the run. -/
structure Logged (launch : Launcher) (args : List Bytes) (s : Settings) (tree : Tree) (o : Outcome) : Prop where
  /-- notes are asked for -/
  verbose_iff : Gives args (.flag .verbose) ↔ s.verbose = true
  /-- of a table that does not load, and of anything behind it, nothing is told -/
  unloaded : ∀ f, s.load launch tree = .error f → o.log = []
  /-- of a table that is loaded, the number of rows and where they come from is told if notes are asked for, and the
  repeated symbols are in any case; and if the artifact is written as well, so is where, as a note again -/
  loaded : ∀ source table, s.tableSource = .ok source → source.load launch tree = .ok table →
    '\n' ∉ source.describe → ∃ repetitions, table.Repetitions repetitions ∧
      let told := (if s.verbose then [Notice.read table.size source.describe] else []) ++
        repetitions.map fun p => Notice.repeated p.1 p.2
      (∀ f, (s.writing launch tree table).2 = .error f → o.log = told.map Notice.text) ∧
      (∀ path, (s.writing launch tree table).2 = .ok path → '\n' ∉ Utf8.decodeLossy path →
        o.log = (told ++ if s.verbose then [Notice.wrote s.kind path] else []).map Notice.text)

/-- **The log tells what happened**, in the order in which it happened, and nothing else, as long as the command that
is run for the listing says nothing of its own. -/
theorem logged_run {launch : Launcher} {args : List Bytes} {env : Environment} {s : Settings} {tree : Tree}
    (h : Accepts args env s) (hsilent : s.Silent launch tree) :
    Logged launch args s tree (run launch env args tree) := by
  rw [h.run_eq]
  have hchatter := hsilent.chatter_eq_nil
  refine ⟨h.verbose_iff, ?_, ?_⟩
  · intro f hload
    rw [Settings.run_of_unloaded hload]
    exact log_eq_notices hchatter (List.forall_mem_nil _)
  · intro source table hsource hload hdescribe
    have hlines : ∀ n ∈ Progress.noticesOnLoading s.verbose source table, IsLine n.text := fun n =>
      Progress.isLine_of_mem_noticesOnLoading (Settings.canonical_of_load hsource hload) hdescribe
    refine ⟨table.duplicates, table.repetitions_duplicates, ?_, ?_⟩
    · intro f hwrite
      rw [Settings.run_of_unwritten hsource hload (Prod.ext rfl hwrite)]
      exact log_eq_notices hchatter hlines
    · intro path hwrite hpath
      rw [Settings.run_of_written hsource hload (Prod.ext rfl hwrite)]
      refine log_eq_notices hchatter (List.forall_mem_append.mpr ⟨hlines, ?_⟩)
      obtain rfl := Artifact.write_eq_ok (Prod.ext rfl hwrite)
      intro n hn
      split at hn
      · rw [List.mem_singleton.mp hn]
        exact Notice.isLine_wrote hpath
      · cases hn

/-- A launcher whose programs all print one listing, in which a symbol is repeated, and say nothing. -/
def listingLauncher : Launcher := fun tree _ =>
  .ran ⟨.exited 0, Utf8.encode "EPERM 1 first\nENOENT 2\nEPERM -1 second\n".toList, [], tree⟩

theorem logged_run_repeated :
    let args := ["hosterrno", "-v", "c", "--errno-command", "list  all"].map fun a => Utf8.encode a.toList
    let s : Settings := ⟨.definitions, Utf8.encode ".".toList, .command "list  all".toList, true, false⟩
    Accepts args (fun _ => none) s ∧ s.Silent listingLauncher Tree.empty ∧
      (run listingLauncher (fun _ => none) args Tree.empty).log =
        [Notice.read 3 "list all".toList, Notice.repeated "EPERM".toList 2,
          Notice.wrote .definitions (Utf8.encode "./src/host/errno.c".toList)].map Notice.text := by
  intro args s
  have haccepts : Accepts args (fun _ => none) s := ⟨_, rfl, rfl⟩
  have hsilent : s.Silent listingLauncher Tree.empty := by
    intro c e _ hran
    cases hran
    rfl
  obtain ⟨repetitions, hrepetitions, -, hwritten⟩ := (logged_run haccepts hsilent).loaded
    (.command ⟨Utf8.encode "list".toList, [Utf8.encode "all".toList]⟩) _ rfl rfl (by decide)
  obtain rfl := hrepetitions.unique (Table.repetitions_duplicates _)
  exact ⟨haccepts, hsilent, hwritten _ rfl (by decide)⟩

end Outcome

end ErrnoBindings
