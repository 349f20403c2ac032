import ErrnoBindings.Proofs.Arguments.Accepted

/-!
# What an accepted command line gives

What is said of a run often begins with an option that was given. An option, a flag or a kind was given by some
arguments when they can be taken apart into clauses that give it (`Gives`). For arguments that are accepted it does not
matter how they are taken apart, because the request has what is given and nothing else (`gives_value_iff`,
`gives_flag_iff`).

Two of the flags ask for nothing but to be told of what is done. A command line from which they are taken away
(`CommandLine.unobserved`) gives the same values as before. So a command line with any of them, at any place among its
clauses and in any spelling, is accepted if the one without them is, as long as none of them stands there twice, and
its request is the same up to these flags (`CommandLine.ofArguments_of_unobserved_eq`).
-/

namespace ErrnoBindings

/-- Some arguments give something: they are made of clauses that do. -/
def Gives (args : List Bytes) (g : Given) : Prop := ∃ line : CommandLine, line.arguments = args ∧ g ∈ line.gives

theorem mem_valuesOf_iff {s : Slot} {v : Bytes} {gs : List Given} : v ∈ valuesOf s gs ↔ Given.value s v ∈ gs := by
  induction gs with
  | nil => simp
  | cons g gs ih =>
    cases g with
    | flag f => simpa [valuesOf] using ih
    | value s' w =>
      rw [valuesOf_value, List.mem_cons, Given.value.injEq]
      by_cases hs : s' = s
      · simp [hs, ih]
      · simp [hs, Ne.symm hs, ih]

section

variable {args : List Bytes} {c : Request}

/-- Arguments that are accepted are made of clauses. -/
theorem CommandLine.exists_arguments_eq (h : Request.ofArguments args = .ok c) :
    ∃ line : CommandLine, line.arguments = args := by
  cases args with
  | nil => cases h
  | cons program args =>
    obtain ⟨clauses, closing, rfl⟩ := Reading.exists_clauses (r := .start) rfl h
    exact ⟨⟨program, clauses, closing⟩, rfl⟩

/-- What accepted arguments give for an option or for the kind is what the request has. -/
theorem gives_value_iff (h : Request.ofArguments args = .ok c) {s : Slot} {v : Bytes} :
    Gives args (.value s v) ↔ v ∈ c.values s := by
  have hvalue : ∀ line : CommandLine, line.arguments = args → (.value s v ∈ line.gives ↔ v ∈ c.values s) := by
    rintro line rfl
    rw [← mem_valuesOf_iff, (line.ofArguments_iff_madeOf.mp h).values]
  constructor
  · rintro ⟨line, hline, hmem⟩
    exact (hvalue line hline).mp hmem
  · intro hmem
    obtain ⟨line, hline⟩ := CommandLine.exists_arguments_eq h
    exact ⟨line, hline, (hvalue line hline).mpr hmem⟩

theorem gives_root_iff (h : Request.ofArguments args = .ok c) {v : Bytes} :
    Gives args (.value .root v) ↔ c.root = some v := by
  rw [gives_value_iff h]
  exact Option.mem_toList

theorem gives_listing_iff (h : Request.ofArguments args = .ok c) {path : Bytes} :
    Gives args (.value .listing path) ↔ c.listing = some path := by
  rw [gives_value_iff h]
  exact Option.mem_toList

/-- The command of a request is a text, and what is given is the form of that text. -/
theorem gives_command_iff (h : Request.ofArguments args = .ok c) {v : Bytes} :
    Gives args (.value .command v) ↔ ∃ line, c.command = some line ∧ Utf8.encode line = v := by
  rw [gives_value_iff h, Request.values]
  simp

/-- Accepted arguments give a flag when the request has it raised. -/
theorem gives_flag_iff (h : Request.ofArguments args = .ok c) {f : Flag} :
    Gives args (.flag f) ↔ c.raised f = true := by
  have hflag : ∀ line : CommandLine, line.arguments = args → (.flag f ∈ line.gives ↔ c.raised f = true) := by
    rintro line rfl
    rw [← List.count_pos_iff, (line.ofArguments_iff_madeOf.mp h).flags]
    cases c.raised f <;> simp
  constructor
  · rintro ⟨line, hline, hmem⟩
    exact (hflag line hline).mp hmem
  · intro hraised
    obtain ⟨line, hline⟩ := CommandLine.exists_arguments_eq h
    exact ⟨line, hline, (hflag line hline).mpr hraised⟩

end

/-! ## Flags that only observe -/

/-- A clause without the flags for a verbose run and for timings; nothing may be left of it. -/
def Clause.unobserved : Clause → List Clause
  | .verbose _ => []
  | .timings => []
  | .root _ v => [.root false v]
  | .rootAttached _ w => [.rootAttached false w]
  | g => [g]

/-- A command line without the flags for a verbose run and for timings. -/
def CommandLine.unobserved (line : CommandLine) : CommandLine :=
  ⟨line.program, line.clauses.flatMap Clause.unobserved, line.closing⟩

/-- What a clause gives besides these flags is left of it. -/
theorem Clause.valuesOf_unobserved (s : Slot) (g : Clause) :
    valuesOf s (g.unobserved.flatMap Clause.gives) = valuesOf s g.gives := by
  cases g with
  | root b v => cases b <;> simp [unobserved, gives, flags, valuesOf]
  | rootAttached b w => cases b <;> simp [unobserved, gives, flags, valuesOf]
  | _ => simp [unobserved, gives, valuesOf]

theorem CommandLine.valuesOf_unobserved (s : Slot) (line : CommandLine) :
    valuesOf s line.unobserved.gives = valuesOf s line.gives := by
  obtain ⟨program, clauses, closing⟩ := line
  rw [gives, gives, valuesOf_append, valuesOf_append]
  refine congrArg (· ++ _) ?_
  rw [unobserved]
  induction clauses with
  | nil => rfl
  | cons g clauses ih =>
    rw [List.flatMap_cons, List.flatMap_append, valuesOf_append, ih, g.valuesOf_unobserved, List.flatMap_cons,
      valuesOf_append]

/-- The only flags that clauses give are these two. -/
theorem CommandLine.eq_of_flag_mem (line : CommandLine) {f : Flag} (h : .flag f ∈ line.gives) :
    f = .verbose ∨ f = .timings := by
  rcases List.mem_append.mp h with h | h
  · obtain ⟨g, -, hg⟩ := List.mem_flatMap.mp h
    cases g with
    | root b v => cases b <;> simp_all [Clause.gives, Clause.flags]
    | rootAttached b w => cases b <;> simp_all [Clause.gives, Clause.flags]
    | _ => simp_all [Clause.gives]
  · cases hclosing : line.closing <;> simp [hclosing, Closing.gives] at h

/-- Command lines that differ in these flags only are accepted together, if no flag is given twice, and their requests
differ in these flags only. -/
theorem CommandLine.ofArguments_of_unobserved_eq {line line' : CommandLine} {c : Request}
    (h : Request.ofArguments line.arguments = .ok c) (hsame : line'.unobserved = line.unobserved)
    (honce : ∀ f, line'.gives.count (.flag f) ≤ 1) :
    Request.ofArguments line'.arguments =
      .ok { c with
        verbose := decide (.flag .verbose ∈ line'.gives)
        timings := decide (.flag .timings ∈ line'.gives) } := by
  have hmade := line.ofArguments_iff_madeOf.mp h
  -- a flag that is given at most once is counted as it is found
  have hcount : ∀ f, line'.gives.count (.flag f) = (decide (.flag f ∈ line'.gives)).toNat := by
    intro f
    have hf := honce f
    by_cases hmem : .flag f ∈ line'.gives
    · have hpos := List.count_pos_iff.mpr hmem
      simp only [hmem, decide_true, Bool.toNat_true]
      omega
    · simp [hmem, List.count_eq_zero_of_not_mem hmem]
  refine line'.ofArguments_iff_madeOf.mpr
    ⟨fun s => ?_, fun f => ?_, hmade.root_ne_nil, hmade.listing_ne_nil, hmade.exclusive⟩
  · rw [← valuesOf_unobserved, hsame, valuesOf_unobserved, hmade.values]
    cases s <;> rfl
  · rw [hcount]
    cases f with
    | verbose => rfl
    | timings => rfl
    | _ => simp [Request.raised, mt line'.eq_of_flag_mem]

end ErrnoBindings
