import ErrnoBindings.Proofs.Arguments.Giving

/-!
# What is pending

A value is looked at late. It is pending while the next argument is read, and only then settled. This module shows that
nobody can tell: what becomes of the arguments that are left (`Reading.request`) is the same whether a reading settles
first or not (`request_of_settle`), and a request is only made if what is pending can be settled, or is an option whose
value follows (`settles_or_waits`). A reading with a pending value may therefore be taken for one that has assigned it
(`request_value_eq_ok_iff`), and from there on no reading need be looked at but those with nothing pending.

The case split in both is that of the arguments that are left: none, or a first one of each shape. Behind a double dash
the first kind is the argument that settles.
-/

namespace ErrnoBindings

namespace Reading

variable {c : Request} {r r₀ r₁ : Reading}

/-! ## Settling -/

theorem settle_of_pending_eq (h : r.pending = .nothing) : r.settle = .ok r := by
  rw [settle, h]

/-- A pending value is settled by checking it and putting it into its slot. -/
theorem settle_value (h : r.pending = .nothing) (s : Slot) (v : Bytes) :
    { r with pending := .value s v }.settle = r.assign s v := by
  have hr : { r with pending := .nothing } = r := by rw [← h]
  rw [settle]
  dsimp only
  rw [hr]

theorem pending_of_settle (h : r.settle = .ok r₀) : r₀.pending = .nothing := by
  rw [settle] at h
  split at h
  · next hp =>
    cases h
    exact hp
  · obtain ⟨-, -, -, -, hpending⟩ := assign_eq_ok h
    exact hpending
  · cases h

/-- Whether a kind was met does not depend on whether it is settled. -/
theorem kindMet_of_settle (h : r.settle = .ok r₀) : r.kindMet = r₀.kindMet := by
  have hr₀ : r₀.kindMet = r₀.kind.isSome := by rw [kindMet, pending_of_settle h]
  have hheld : ∀ r : Reading, r.kind.isSome = (r.held .kind).isEmpty.not := fun r => by
    cases hk : r.kind <;> simp [held, hk]
  rw [settle] at h
  split at h
  · cases h
    rfl
  · next s v hp =>
    obtain ⟨-, -, hassigned, -⟩ := assign_eq_ok h
    rw [hr₀, hheld, hassigned]
    cases s <;> simp [kindMet, hp, hheld, held]
  · cases h

/-- A settled reading has met a kind if it holds one. -/
theorem kindMet_eq_false_iff (h : r.pending = .nothing) : r.kindMet = false ↔ r.held .kind = [] := by
  simp [kindMet, h, held]

/-- Finishing settles first. -/
theorem finish_eq_settle_bind (r : Reading) : r.finish = r.settle >>= finish := by
  cases h : r.settle with
  | error e =>
    rw [finish, h]
    rfl
  | ok r₀ => rw [ok_bind, finish, finish, h, settle_of_pending_eq (pending_of_settle h)]

theorem readKind_eq_ok_iff {k : Bytes} :
    r.readKind k = .ok r₁ ↔
      r.kindMet = false ∧ ∃ r₀, r.settle = .ok r₀ ∧ r₁ = { r₀ with pending := .value .kind k } := by
  rw [readKind]
  cases r.kindMet with
  | true => simp
  | false =>
    simp only [Bool.false_eq_true, if_false, true_and, bind_eq_ok_iff]
    constructor
    · rintro ⟨r₀, hsettle, h⟩
      cases h
      exact ⟨r₀, hsettle, rfl⟩
    · rintro ⟨r₀, hsettle, rfl⟩
      exact ⟨r₀, hsettle, rfl⟩

theorem not_waiting (h : r.pending = .nothing) (s : Slot) : r.pending ≠ .waiting s := by
  rw [h]
  exact Pending.noConfusion

/-- A reading that waits for nothing takes an argument of no special shape for a kind. -/
theorem readPlain_eq_readKind (h : ∀ s, r.pending ≠ .waiting s) (k : Bytes) : r.readPlain k = r.readKind k := by
  rw [readPlain]
  split
  · next s hs => exact absurd hs (h s)
  · rfl

/-- A long argument that is read settles what is pending, for what does not is refused. -/
theorem settles_of_readLong {body : Bytes} (h : r.readLong body = .ok r₁) : ∃ r₀, r.settle = .ok r₀ := by
  cases hsettle : r.settle with
  | ok r₀ => exact ⟨r₀, rfl⟩
  | error stop =>
    simp only [readLong, hsettle, error_bind] at h
    split at h <;> cases h

theorem settles_of_readShort {b : UInt8} {bs : Bytes} (h : r.readShort (b :: bs) = .ok r₁) :
    ∃ r₀, r.settle = .ok r₀ := by
  cases hsettle : r.settle with
  | ok r₀ => exact ⟨r₀, rfl⟩
  | error stop =>
    simp only [readShort, hsettle, error_bind] at h
    (repeat' split at h) <;> cases h

/-! ## What is left -/

/-- What a reading makes of the arguments that are left. -/
def request (r : Reading) (args : List Bytes) : Except Stop Request := r.readAll false args >>= finish

theorem readAll_escaped (r : Reading) (k : Bytes) (rest : List Bytes) :
    r.readAll true (k :: rest) = r.readKind k >>= fun r' => r'.readAll true rest := by
  rw [readAll, if_pos rfl]

theorem request_escape (r : Reading) (rest : List Bytes) :
    r.request ([dash, dash] :: rest) = r.readAll true rest >>= finish := rfl

theorem request_long {body : Bytes} (h : Shape.of (dash :: dash :: body) = .long body) (r : Reading)
    (rest : List Bytes) :
    r.request ((dash :: dash :: body) :: rest) = r.readLong body >>= fun r' => r'.request rest := by
  rw [request, readAll, if_neg Bool.false_ne_true, h, bind_assoc]
  rfl

theorem request_short {body : Bytes} (h : Shape.of (dash :: body) = .short body) (r : Reading) (rest : List Bytes) :
    r.request ((dash :: body) :: rest) = r.readShort body >>= fun r' => r'.request rest := by
  rw [request, readAll, if_neg Bool.false_ne_true, h, bind_assoc]
  rfl

theorem request_plain {a : Bytes} (h : Shape.of a = .plain) (r : Reading) (rest : List Bytes) :
    r.request (a :: rest) = r.readPlain a >>= fun r' => r'.request rest := by
  rw [request, readAll, if_neg Bool.false_ne_true, h, bind_assoc]
  rfl

/-- A reading that makes a request settles what is pending, unless an option waits for its value and the value
follows. -/
theorem settles_or_waits {args : List Bytes} (h : r.request args = .ok c) :
    (∃ r₀, r.settle = .ok r₀) ∨
      ∃ (s : Slot) (v : Operand) (rest : List Bytes), r.pending = .waiting s ∧ args = v.octets :: rest ∧
        { r with pending := .value s v.octets }.request rest = .ok c := by
  have hfinish : r.finish = .ok c → ∃ r₀, r.settle = .ok r₀ := by
    intro h
    rw [finish_eq_settle_bind] at h
    obtain ⟨r₀, h, -⟩ := bind_eq_ok_iff.mp h
    exact ⟨r₀, h⟩
  have hkind : ∀ {k r₁}, r.readKind k = .ok r₁ → ∃ r₀, r.settle = .ok r₀ := by
    intro k r₁ h
    obtain ⟨-, r₀, h, -⟩ := readKind_eq_ok_iff.mp h
    exact ⟨r₀, h⟩
  cases args with
  | nil => exact Or.inl (hfinish h)
  | cons a rest =>
    rcases Shape.of_cases a with ⟨-, rfl⟩ | ⟨body, hshape, rfl⟩ | ⟨b, bs, hshape, rfl⟩ | ⟨hshape, hplain⟩
    · rw [request_escape] at h
      cases rest with
      | nil => exact Or.inl (hfinish h)
      | cons k rest =>
        rw [readAll_escaped, bind_assoc] at h
        obtain ⟨r₁, h, -⟩ := bind_eq_ok_iff.mp h
        exact Or.inl (hkind h)
    · rw [request_long hshape] at h
      obtain ⟨r₁, h, -⟩ := bind_eq_ok_iff.mp h
      exact Or.inl (settles_of_readLong h)
    · rw [request_short hshape] at h
      obtain ⟨r₁, h, -⟩ := bind_eq_ok_iff.mp h
      exact Or.inl (settles_of_readShort h)
    · rw [request_plain hshape] at h
      obtain ⟨r₁, hread, h⟩ := bind_eq_ok_iff.mp h
      rw [readPlain] at hread
      split at hread
      · next s hs =>
        cases hread
        exact Or.inr ⟨s, ⟨a, hplain⟩, rest, hs, rfl, h⟩
      · exact Or.inl (hkind hread)

/-- Settling first makes no difference to what becomes of the rest. -/
theorem request_of_settle (h : r.settle = .ok r₀) (args : List Bytes) : r.request args = r₀.request args := by
  have hr₀ := settle_of_pending_eq (pending_of_settle h)
  have hfinish : r.finish = r₀.finish := by
    rw [finish_eq_settle_bind, finish_eq_settle_bind r₀, h, hr₀]
  have hkind : ∀ k, r.readKind k = r₀.readKind k := fun k => by
    rw [readKind, readKind, kindMet_of_settle h, h, hr₀]
  cases args with
  | nil => exact hfinish
  | cons a rest =>
    rcases Shape.of_cases a with ⟨-, rfl⟩ | ⟨body, hshape, rfl⟩ | ⟨b, bs, hshape, rfl⟩ | ⟨hshape, hplain⟩
    · rw [request_escape, request_escape]
      cases rest with
      | nil => exact hfinish
      | cons k rest => rw [readAll_escaped, readAll_escaped, hkind]
    · rw [request_long hshape, request_long hshape, readLong, readLong, h, hr₀]
    · rw [request_short hshape, request_short hshape, readShort, readShort, h, hr₀]
    · have hcalm : ∀ s, r.pending ≠ .waiting s := fun s hs => by
        rw [settle, hs] at h
        cases h
      rw [request_plain hshape, request_plain hshape, readPlain_eq_readKind hcalm,
        readPlain_eq_readKind (not_waiting (pending_of_settle h)), hkind]

/-- A pending value is taken before anything else becomes of the rest. -/
theorem request_value_eq_ok_iff (h : r.pending = .nothing) {s : Slot} {v : Bytes} {args : List Bytes} :
    { r with pending := .value s v }.request args = .ok c ↔
      ∃ r', r.assign s v = .ok r' ∧ r'.request args = .ok c := by
  rw [← settle_value h]
  constructor
  · intro hrequest
    rcases settles_or_waits hrequest with ⟨r₀, hsettle⟩ | ⟨s', v', rest, hp, -⟩
    · rw [request_of_settle hsettle] at hrequest
      exact ⟨r₀, hsettle, hrequest⟩
    · cases hp
  · rintro ⟨r', hsettle, hrequest⟩
    rw [request_of_settle hsettle, hrequest]

end Reading

end ErrnoBindings
