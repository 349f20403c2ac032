import ErrnoBindings.Proofs.Arguments.Settling

/-!
# Which command lines are accepted

A command line makes a request exactly when it is made of clauses and what these give makes the request
(`Request.ofArguments_eq_ok_iff`).

One clause at a time, and with nothing pending, reading is taking: a request is made of a clause and the arguments
behind it when the clause can be taken, and the request is made of the arguments behind it then
(`request_clause_eq_ok_iff`). Over all clauses, what is read completes a request (`request_eq_ok_iff`). That there is
nothing else in an accepted command line is seen from its first argument: whatever is read there is a clause, or the
first of the two arguments of one (`Opens`), or a double dash with a kind at most behind it.
-/

namespace ErrnoBindings

namespace Reading

variable {c : Request} {r r₀ r₁ : Reading}

/-! ## Clause by clause -/

/-- The value of an option stands behind it. -/
theorem request_waiting (r : Reading) (s : Slot) (v : Operand) (rest : List Bytes) :
    { r with pending := .waiting s }.request (v.octets :: rest) =
      { r with pending := .value s v.octets }.request rest :=
  request_plain (Shape.of_plain v.plain) _ rest

/-- A letter for a verbose run, alone or with more letters behind it, raises the flag. -/
theorem readShort_verbose (hr : r.pending = .nothing) (bs : Bytes) :
    r.readShort (Clause.verboseLetter :: bs) = r.raise .verbose false >>= fun r' => r'.readShort bs := by
  rw [readShort, if_neg (by decide), if_pos (by decide), settle_of_pending_eq hr, ok_bind]

/-- The letter of the root takes what is behind it. -/
theorem readShort_root (hr : r.pending = .nothing) (bs : Bytes) :
    r.readShort (Clause.rootLetter :: bs) =
      if bs = [] then .ok { r with pending := .waiting .root } else r.assign .root (attached bs) := by
  rw [readShort, if_pos (by decide), settle_of_pending_eq hr, ok_bind]
  rfl

/-- Letters that give the root are read up to the root's, and what is behind it is the root. -/
theorem request_letters (hr : r.pending = .nothing) (b : Bool) (w : Bytes) (rest : List Bytes) :
    r.request ((dash :: Clause.letters b ++ w) :: rest) =
      r.giveAll (Clause.flags b) >>= fun r' =>
        (if w = [] then .ok { r' with pending := .waiting .root } else r'.assign .root (attached w)) >>=
          fun r'' => r''.request rest := by
  cases b with
  | false =>
    refine (request_short (Shape.of_short (by decide) w) r rest).trans ?_
    rw [readShort_root hr]
    rfl
  | true =>
    refine (request_short (Shape.of_short (by decide) (Clause.rootLetter :: w)) r rest).trans ?_
    rw [readShort_verbose hr, bind_assoc]
    change _ = r.giveAll [.flag .verbose] >>= _
    rw [giveAll_singleton, give]
    cases hraise : r.raise .verbose false with
    | error e => rfl
    | ok r' =>
      obtain ⟨-, -, -, hpending⟩ := raise_eq_ok hraise
      rw [ok_bind, ok_bind, readShort_root (hpending.trans hr)]

/-- A long name of a flag raises it. -/
theorem readLong_flag (hr : r.pending = .nothing) {name : Bytes} {f : Flag}
    (hname : Parameter.ofName? name = some (.flag f)) (heq : equalsSign ∉ name) : r.readLong name = r.raise f true := by
  simp only [readLong, splitLong_of_notMem heq, hname, settle_of_pending_eq hr, ok_bind]

/-- A long name of an option waits for the option's value. -/
theorem readLong_name (hr : r.pending = .nothing) (o : ValueOption) :
    r.readLong (Utf8.encode o.name) = .ok { r with pending := .waiting o.slot } := by
  simp only [readLong, splitLong_of_notMem o.equalsSign_notMem_name, o.ofName?_name, settle_of_pending_eq hr, ok_bind]
  rfl

/-- A long name of an option with a value behind it assigns the value. -/
theorem readLong_joined (hr : r.pending = .nothing) (o : ValueOption) (v : Bytes) :
    r.readLong (Utf8.encode o.name ++ equalsSign :: v) = r.assign o.slot v := by
  simp only [readLong, splitLong_append o.equalsSign_notMem_name, o.ofName?_name, settle_of_pending_eq hr, ok_bind]

/-- The letter of a kind is read as a kind, and taken as one when no kind is held yet. -/
theorem readKind_letter (hr : r.pending = .nothing) (a : Artifact) :
    r.readKind (Utf8.encode a.letter) = .ok r₁ ↔
      r.held .kind = [] ∧ r₁ = { r with pending := .value .kind (Utf8.encode a.letter) } := by
  rw [readKind_eq_ok_iff, kindMet_eq_false_iff hr, settle_of_pending_eq hr]
  simp

theorem request_kind_eq_ok_iff (hr : r.pending = .nothing) (a : Artifact) {rest : List Bytes} :
    r.request (Utf8.encode a.letter :: rest) = .ok c ↔
      ∃ r', r.assign .kind (Utf8.encode a.letter) = .ok r' ∧ r'.request rest = .ok c := by
  rw [request_plain (Shape.of_letter a), readPlain_eq_readKind (not_waiting hr), bind_eq_ok_iff,
    ← request_value_eq_ok_iff hr]
  constructor
  · rintro ⟨r₁, hkind, h⟩
    obtain ⟨-, rfl⟩ := (readKind_letter hr a).mp hkind
    exact h
  · intro h
    obtain ⟨r', hassign, -⟩ := (request_value_eq_ok_iff hr).mp h
    obtain ⟨hfree, -⟩ := assign_eq_ok hassign
    exact ⟨_, (readKind_letter hr a).mpr ⟨hfree, rfl⟩, h⟩

/-- A clause that is read has been taken, and what is left is read behind it. -/
theorem request_clause_eq_ok_iff (hr : r.pending = .nothing) (g : Clause) (rest : List Bytes) :
    r.request (g.arguments ++ rest) = .ok c ↔ ∃ r', r.giveAll g.gives = .ok r' ∧ r'.request rest = .ok c := by
  cases g with
  | verbose short =>
    rw [← bind_eq_ok_iff, Clause.gives, giveAll_singleton, give]
    cases short with
    | false =>
      simp only [Clause.arguments, List.cons_append, List.nil_append]
      rw [request_long (Shape.of_long (by decide)), readLong_flag hr (f := .verbose) rfl (by decide)]
      rfl
    | true =>
      simp only [Clause.arguments, List.cons_append, List.nil_append]
      rw [request_short (Shape.of_short (by decide) []), readShort_verbose hr, bind_assoc]
      rfl
  | timings =>
    rw [← bind_eq_ok_iff, Clause.gives, giveAll_singleton, give]
    simp only [Clause.arguments, List.cons_append, List.nil_append]
    rw [request_long (Shape.of_long (by decide)), readLong_flag hr (f := .timings) rfl (by decide)]
    rfl
  | joined o v =>
    rw [← bind_eq_ok_iff, Clause.gives, giveAll_singleton, give]
    simp only [Clause.arguments, List.cons_append, List.nil_append]
    rw [request_long (Shape.of_long (by simp)), readLong_joined hr]
  | apart o v =>
    rw [Clause.gives, giveAll_singleton, give, ← request_value_eq_ok_iff hr]
    simp only [Clause.arguments, List.cons_append, List.nil_append]
    rw [request_long (Shape.of_long o.name_ne_nil), readLong_name hr, ok_bind, request_waiting]
  | root b v =>
    rw [Clause.gives, giveAll_append]
    have hletters := request_letters hr b [] (v.octets :: rest)
    rw [List.append_nil] at hletters
    simp only [Clause.arguments, List.cons_append, List.nil_append]
    rw [hletters]
    cases hflags : r.giveAll (Clause.flags b) with
    | error e => simp
    | ok r' =>
      have hr' := (pending_of_giveAll hflags).trans hr
      rw [ok_bind, ok_bind, if_pos rfl, ok_bind, giveAll_singleton, request_waiting, request_value_eq_ok_iff hr']
      rfl
  | rootAttached b w =>
    rw [← bind_eq_ok_iff, Clause.gives, giveAll_append, bind_assoc]
    simp only [Clause.arguments, List.cons_append, List.nil_append]
    rw [← List.cons_append, request_letters hr b w.octets rest]
    simp only [if_neg w.ne_nil, giveAll_singleton, give, Attachment.value_eq]
  | kind a =>
    rw [Clause.gives, giveAll_singleton, give]
    simp only [Clause.arguments, List.cons_append, List.nil_append]
    exact request_kind_eq_ok_iff hr a

/-- What stands behind the clauses is read to the end of the request. -/
theorem request_closing_eq_ok_iff (hr : r.pending = .nothing) (closing : Closing) :
    r.request closing.arguments = .ok c ↔ Completes c r closing.gives := by
  cases closing with
  | absent => exact (completes_nil hr).symm
  | dashes => exact (completes_nil hr).symm
  | kind a =>
    have hplain : r.request [[dash, dash], Utf8.encode a.letter] = r.request [Utf8.encode a.letter] := by
      rw [request_escape, readAll_escaped, bind_assoc, request_plain (Shape.of_letter a),
        readPlain_eq_readKind (not_waiting hr)]
      rfl
    rw [Closing.arguments, hplain, request_kind_eq_ok_iff hr, Closing.gives, completes_cons]
    constructor
    · rintro ⟨r', hassign, h⟩
      have hr' := (pending_of_give (g := .value .kind _) hassign).trans hr
      exact ⟨r', hassign, (completes_nil hr').mpr h⟩
    · rintro ⟨r', hassign, h⟩
      have hr' := (pending_of_give hassign).trans hr
      exact ⟨r', hassign, (completes_nil hr').mp h⟩

/-- A reading makes a request of clauses exactly when what they give completes it. -/
theorem request_eq_ok_iff (hr : r.pending = .nothing) (clauses : List Clause) (closing : Closing) :
    r.request (clauses.flatMap Clause.arguments ++ closing.arguments) = .ok c ↔
      Completes c r (clauses.flatMap Clause.gives ++ closing.gives) := by
  induction clauses generalizing r with
  | nil => exact request_closing_eq_ok_iff hr closing
  | cons g clauses ih =>
    rw [List.flatMap_cons, List.append_assoc, request_clause_eq_ok_iff hr, List.flatMap_cons, List.append_assoc,
      completes_append]
    constructor
    · rintro ⟨r', hg, h⟩
      exact ⟨r', hg, (ih ((pending_of_giveAll hg).trans hr)).mp h⟩
    · rintro ⟨r', hg, h⟩
      exact ⟨r', hg, (ih ((pending_of_giveAll hg).trans hr)).mpr h⟩

/-! ## Nothing but clauses -/

/-- An argument that is read is a clause, or the first of the two arguments of one, for the value of which the reading
waits then. -/
def Opens (a : Bytes) (r : Reading) : Prop :=
  (∃ g : Clause, g.arguments = [a]) ∨
    (∃ s, r.pending = .waiting s) ∧ ∀ v : Operand, ∃ g : Clause, g.arguments = [a, v.octets]

theorem opens_of_readLong {body : Bytes} (h : r.readLong body = .ok r₁) : Opens (dash :: dash :: body) r₁ := by
  rcases hsplit : splitLong body with ⟨name, value?⟩
  obtain rfl := eq_of_splitLong hsplit
  simp only [readLong, hsplit] at h
  split at h
  · cases h
  · next s v hname =>
    obtain ⟨o, rfl⟩ := ValueOption.exists_name hname
    exact Or.inl ⟨.joined o v, by simp [Clause.arguments]⟩
  · next s hname =>
    obtain ⟨o, rfl⟩ := ValueOption.exists_name hname
    obtain ⟨r₀, -, h⟩ := bind_eq_ok_iff.mp h
    cases h
    exact Or.inr ⟨⟨s, rfl⟩, fun v => ⟨.apart o v, by simp [Clause.arguments]⟩⟩
  · cases h
  · next f hname =>
    obtain ⟨r₀, -, hraise⟩ := bind_eq_ok_iff.mp h
    obtain ⟨n, hmem, rfl⟩ := Parameter.ofName?_eq_some_iff.mp hname
    simp only [Parameter.named, List.mem_cons, Prod.mk.injEq, Parameter.flag.injEq, reduceCtorEq, and_false,
      List.not_mem_nil, or_false, false_or] at hmem
    rcases hmem with ⟨rfl, rfl⟩ | ⟨rfl, rfl⟩ | ⟨rfl, rfl⟩ | ⟨rfl, rfl⟩
    · exact Or.inl ⟨.verbose false, by simp [Clause.arguments]⟩
    · exact Or.inl ⟨.timings, by simp [Clause.arguments]⟩
    · cases hraise
    · cases hraise

/-- The letter of the root opens a clause, whatever is behind it. -/
theorem opens_of_readShort_root {b : Bool} {w : Bytes} (hr : r.pending = .nothing)
    (h : r.readShort (Clause.rootLetter :: w) = .ok r₁) : Opens (dash :: Clause.letters b ++ w) r₁ := by
  rw [readShort_root hr] at h
  split at h
  · next hw =>
    cases h
    exact Or.inr ⟨⟨.root, rfl⟩, fun v => ⟨.root b v, by rw [hw, List.append_nil, Clause.arguments]⟩⟩
  · next hw => exact Or.inl ⟨.rootAttached b ⟨w, hw⟩, rfl⟩

/-- No letter but that of the root and that of a verbose run is part of a request. -/
theorem letter_of_readShort {b : UInt8} {bs : Bytes} (h : r.readShort (b :: bs) = .ok r₁) :
    b = Clause.rootLetter ∨ b = Clause.verboseLetter := by
  rw [readShort] at h
  split at h
  · next hb => exact Or.inl hb
  split at h
  · next hb => exact Or.inr hb
  -- help and the version are no request, nor is a letter that nothing has
  split at h
  · obtain ⟨r₀, -, h⟩ := bind_eq_ok_iff.mp h
    obtain ⟨r', hraise, -⟩ := bind_eq_ok_iff.mp h
    cases hraise
  split at h
  · obtain ⟨r₀, -, h⟩ := bind_eq_ok_iff.mp h
    obtain ⟨r', hraise, -⟩ := bind_eq_ok_iff.mp h
    cases hraise
  · cases h

theorem opens_of_readShort {b : UInt8} {bs : Bytes} (hr : r.pending = .nothing)
    (h : r.readShort (b :: bs) = .ok r₁) : Opens (dash :: b :: bs) r₁ := by
  rcases letter_of_readShort h with rfl | rfl
  · exact opens_of_readShort_root (b := false) hr h
  · rw [readShort_verbose hr] at h
    obtain ⟨r', hraise, h⟩ := bind_eq_ok_iff.mp h
    obtain ⟨-, hraised, -, hpending⟩ := raise_eq_ok hraise
    cases bs with
    | nil => exact Or.inl ⟨.verbose true, rfl⟩
    | cons b bs =>
      rcases letter_of_readShort h with rfl | rfl
      · exact opens_of_readShort_root (b := true) (hpending.trans hr) h
      · -- a flag cannot be raised twice
        rw [readShort_verbose (hpending.trans hr)] at h
        obtain ⟨r'', hraise', -⟩ := bind_eq_ok_iff.mp h
        obtain ⟨hfree, -⟩ := raise_eq_ok hraise'
        rw [hraised] at hfree
        cases hfree

/-- The arguments that are left begin with the clause that their first one opens. -/
theorem exists_clause_of_opens {a : Bytes} {rest : List Bytes} (hopens : Opens a r) (h : r.request rest = .ok c) :
    ∃ (g : Clause) (rest' : List Bytes), a :: rest = g.arguments ++ rest' := by
  rcases hopens with ⟨g, hg⟩ | ⟨⟨s, hs⟩, hg⟩
  · exact ⟨g, rest, by rw [hg]; rfl⟩
  · rcases settles_or_waits h with ⟨r₀, hsettle⟩ | ⟨s', v, rest', -, rfl, -⟩
    · rw [settle, hs] at hsettle
      cases hsettle
    · obtain ⟨g, hg⟩ := hg v
      exact ⟨g, rest', by rw [hg]; rfl⟩

/-- Behind a double dash stands a kind at most. -/
theorem exists_closing {rest : List Bytes} (h : r.request ([dash, dash] :: rest) = .ok c) :
    ∃ closing : Closing, [dash, dash] :: rest = closing.arguments := by
  cases rest with
  | nil => exact ⟨.dashes, rfl⟩
  | cons k rest =>
    rw [request_escape, readAll_escaped, bind_assoc] at h
    obtain ⟨r₁, hkind, h⟩ := bind_eq_ok_iff.mp h
    obtain ⟨-, r₀, hsettle, rfl⟩ := readKind_eq_ok_iff.mp hkind
    cases rest with
    | nil =>
      have hrequest : { r₀ with pending := .value .kind k }.request [] = .ok c := h
      obtain ⟨r', hassign, -⟩ := (request_value_eq_ok_iff (pending_of_settle hsettle)).mp hrequest
      obtain ⟨-, ⟨a, rfl⟩, -⟩ := assign_eq_ok hassign
      exact ⟨.kind a, rfl⟩
    | cons k' rest =>
      -- a second kind is refused while the first one is pending
      rw [readAll_escaped, bind_assoc] at h
      obtain ⟨r₂, hkind', -⟩ := bind_eq_ok_iff.mp h
      obtain ⟨hmet, -⟩ := readKind_eq_ok_iff.mp hkind'
      cases hmet

/-- Arguments of which a request is made begin with a clause, or are what stands behind the clauses. -/
theorem exists_clause_or_closing {a : Bytes} {rest : List Bytes} (hr : r.pending = .nothing)
    (h : r.request (a :: rest) = .ok c) :
    (∃ (g : Clause) (rest' : List Bytes), a :: rest = g.arguments ++ rest') ∨
      ∃ closing : Closing, a :: rest = closing.arguments := by
  rcases Shape.of_cases a with ⟨-, rfl⟩ | ⟨body, hshape, rfl⟩ | ⟨b, bs, hshape, rfl⟩ | ⟨hshape, -⟩
  · exact Or.inr (exists_closing h)
  · rw [request_long hshape] at h
    obtain ⟨r₁, hread, h⟩ := bind_eq_ok_iff.mp h
    exact Or.inl (exists_clause_of_opens (opens_of_readLong hread) h)
  · rw [request_short hshape] at h
    obtain ⟨r₁, hread, h⟩ := bind_eq_ok_iff.mp h
    exact Or.inl (exists_clause_of_opens (opens_of_readShort hr hread) h)
  · rw [request_plain hshape, readPlain_eq_readKind (not_waiting hr)] at h
    obtain ⟨r₁, hkind, h⟩ := bind_eq_ok_iff.mp h
    obtain ⟨-, r₀, hsettle, rfl⟩ := readKind_eq_ok_iff.mp hkind
    obtain ⟨r', hassign, -⟩ := (request_value_eq_ok_iff (pending_of_settle hsettle)).mp h
    obtain ⟨-, ⟨k, rfl⟩, -⟩ := assign_eq_ok hassign
    exact Or.inl ⟨.kind k, rest, rfl⟩

/-- Arguments of which a request is made are clauses and what stands behind them. The induction is on the number of
arguments, for a clause may have two. -/
theorem exists_clauses {args : List Bytes} (hr : r.pending = .nothing) (h : r.request args = .ok c) :
    ∃ (clauses : List Clause) (closing : Closing), clauses.flatMap Clause.arguments ++ closing.arguments = args := by
  induction hn : args.length using Nat.strongRecOn generalizing r args with
  | _ n ih =>
  cases args with
  | nil => exact ⟨[], .absent, rfl⟩
  | cons a rest =>
    rcases exists_clause_or_closing hr h with ⟨g, rest', hg⟩ | ⟨closing, hclosing⟩
    · rw [hg] at h hn ⊢
      obtain ⟨r', hgive, h⟩ := (request_clause_eq_ok_iff hr g rest').mp h
      have hshort : rest'.length < n := by
        have hpos := g.length_arguments_pos
        rw [List.length_append] at hn
        omega
      obtain ⟨clauses, closing, rfl⟩ := ih _ hshort ((pending_of_giveAll hgive).trans hr) h rfl
      exact ⟨g :: clauses, closing, by rw [List.flatMap_cons, List.append_assoc]⟩
    · exact ⟨[], closing, hclosing.symm⟩

end Reading

/-- A command line that is made of clauses makes the request that these make together, and no other. -/
theorem CommandLine.ofArguments_iff_madeOf (line : CommandLine) {c : Request} :
    Request.ofArguments line.arguments = .ok c ↔ c.MadeOf line.gives := by
  rw [← Reading.completes_start]
  exact Reading.request_eq_ok_iff rfl line.clauses line.closing

/-- **The command lines that are accepted are those that are made of clauses that fit together.** The request of an
accepted command line is what its clauses give, in whatever order and spelling they give it; and whatever is not of
this form makes no request. -/
theorem Request.ofArguments_eq_ok_iff {args : List Bytes} {c : Request} :
    ofArguments args = .ok c ↔ ∃ line : CommandLine, line.arguments = args ∧ c.MadeOf line.gives := by
  constructor
  · intro h
    cases args with
    | nil => cases h
    | cons program args =>
      have hrequest : Reading.start.request args = .ok c := h
      obtain ⟨clauses, closing, rfl⟩ := Reading.exists_clauses rfl hrequest
      exact ⟨⟨program, clauses, closing⟩, rfl, (CommandLine.ofArguments_iff_madeOf ⟨program, clauses, closing⟩).mp h⟩
  · rintro ⟨line, rfl, h⟩
    exact line.ofArguments_iff_madeOf.mpr h

/-- A command line of two clauses and a kind behind a double dash. -/
example :
    Request.ofArguments (["hosterrno", "-vC", "out", "--listing=codes", "--", "c"].map fun a => Utf8.encode a.toList) =
      .ok ⟨.definitions, some (Utf8.encode "out".toList), none, some (Utf8.encode "codes".toList), true, false⟩ :=
  rfl

end ErrnoBindings
