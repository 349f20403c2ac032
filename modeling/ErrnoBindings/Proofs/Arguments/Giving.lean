import ErrnoBindings.Arguments.Grammar
import ErrnoBindings.Proofs.Text.Utf8

/-!
# What is given, and the request that it makes

A reading can take what it is given at once (`Reading.give`), with nothing left pending. Taking a value is possible
when the place for it is free and the value passes the check for that place (`Reading.assign_eq_ok`,
`Reading.exists_assign`); taking a flag, when it has not been raised.

Things that are taken one after the other make a request exactly when they fit together. The induction is on what is
still to be given, and what carries it is a request that a reading and the rest *complete* (`Reading.Completes`): what
the reading holds already, and what is still given, are together what the request asks for. One thing that is taken
goes from the rest to the reading (`Reading.completes_cons`), and at the start all of it is still to be given
(`Reading.completes_start`).
-/

namespace ErrnoBindings

/-! ## One step after the other -/

/-- A step behind one that came to something. -/
@[simp] theorem ok_bind {ε α β : Type} (a : α) (f : α → Except ε β) : (Except.ok a >>= f) = f a := rfl

/-- Nothing is done behind a step that failed. -/
@[simp] theorem error_bind {ε α β : Type} (e : ε) (f : α → Except ε β) : (Except.error e >>= f) = .error e := rfl

/-- Two steps come to something when the first does and the second does with what it came to. -/
theorem bind_eq_ok_iff {ε α β : Type} {x : Except ε α} {f : α → Except ε β} {b : β} :
    (x >>= f) = .ok b ↔ ∃ a, x = .ok a ∧ f a = .ok b := by
  cases x with
  | error e => simp
  | ok a => simp

/-! ## Values that are checked -/

/-- A value that passes the check for what it is for. -/
def Admissible : Slot → Bytes → Prop
  | .kind, v => ∃ a : Artifact, v = Utf8.encode a.letter
  | .root, v => v ≠ []
  | .command, v => ∃ t, v = Utf8.encode t
  | .listing, v => v ≠ []

/-! ## Values that are given -/

@[simp] theorem valuesOf_nil (s : Slot) : valuesOf s [] = [] := rfl

theorem valuesOf_value (s s' : Slot) (v : Bytes) (gs : List Given) :
    valuesOf s (.value s' v :: gs) = if s' = s then v :: valuesOf s gs else valuesOf s gs := by
  by_cases h : s' = s <;> simp [valuesOf, h]

theorem valuesOf_append (s : Slot) (gs gs' : List Given) : valuesOf s (gs ++ gs') = valuesOf s gs ++ valuesOf s gs' :=
  List.filterMap_append

/-- A request has one value at most for each thing. -/
theorem Request.length_values_le (c : Request) (s : Slot) : (c.values s).length ≤ 1 := by
  cases s with
  | kind => exact Nat.le_refl 1
  | root => cases h : c.root <;> simp [values, h]
  | command => cases h : c.command <;> simp [values, h]
  | listing => cases h : c.listing <;> simp [values, h]

namespace Reading

/-- The values that a reading has settled. -/
def held (r : Reading) : Slot → List Bytes
  | .kind => r.kind.toList.map fun a => Utf8.encode a.letter
  | .root => r.root.toList
  | .command => r.command.toList.map Utf8.encode
  | .listing => r.listing.toList

/-- The flags that a reading has met. -/
def raised (r : Reading) : Flag → Bool
  | .verbose => r.verbose
  | .timings => r.timings
  | .help => false
  | .version => false

/-- A value that a reading takes has a free place and passes its check; the place is taken then, and all else is as
it was. -/
theorem assign_eq_ok {r r' : Reading} {s : Slot} {v : Bytes} (h : r.assign s v = .ok r') :
    r.held s = [] ∧ Admissible s v ∧ (∀ s', r'.held s' = if s = s' then [v] else r.held s') ∧
      (∀ f, r'.raised f = r.raised f) ∧ r'.pending = r.pending := by
  cases s with
  | kind =>
    simp only [assign] at h
    split at h
    · cases h
    · next hfree =>
      split at h
      · cases h
      · split at h
        · next a ha =>
          cases h
          obtain rfl := Artifact.ofLetter?_eq_some_iff.mp ha
          refine ⟨by simpa [held] using hfree, ⟨a, rfl⟩, fun s' => ?_, fun f => rfl, rfl⟩
          cases s' <;> rfl
        · cases h
  | root =>
    simp only [assign] at h
    split at h
    · cases h
    · next hfree =>
      split at h
      · cases h
      · next hne =>
        cases h
        refine ⟨by simpa [held] using hfree, hne, fun s' => ?_, fun f => rfl, rfl⟩
        cases s' <;> rfl
  | listing =>
    simp only [assign] at h
    split at h
    · cases h
    · next hfree =>
      split at h
      · cases h
      · next hne =>
        cases h
        refine ⟨by simpa [held] using hfree, hne, fun s' => ?_, fun f => rfl, rfl⟩
        cases s' <;> rfl
  | command =>
    simp only [assign] at h
    split at h
    · cases h
    · next hfree =>
      split at h
      · next t ht =>
        cases h
        obtain rfl := Utf8.decode?_eq_some_iff.mp ht
        refine ⟨by simpa [held] using hfree, ⟨t, rfl⟩, fun s' => ?_, fun f => rfl, rfl⟩
        cases s' <;> rfl
      · cases h

/-- A value that passes its check is taken where the place for it is free. -/
theorem exists_assign {r : Reading} {s : Slot} {v : Bytes} (hfree : r.held s = []) (hv : Admissible s v) :
    ∃ r', r.assign s v = .ok r' := by
  cases s with
  | kind =>
    obtain ⟨a, rfl⟩ := hv
    have hnone : r.kind = none := by simpa [held] using hfree
    have hne : Utf8.encode a.letter ≠ [] := by cases a <;> decide
    simp [assign, hnone, hne]
  | root =>
    have hnone : r.root = none := by simpa [held] using hfree
    have hne : v ≠ [] := hv
    simp [assign, hnone, hne]
  | listing =>
    have hnone : r.listing = none := by simpa [held] using hfree
    have hne : v ≠ [] := hv
    simp [assign, hnone, hne]
  | command =>
    obtain ⟨t, rfl⟩ := hv
    have hnone : r.command = none := by simpa [held] using hfree
    simp [assign, hnone]

/-- A flag that a reading raises has not been raised before and asks for no text; all else is as it was. -/
theorem raise_eq_ok {r r' : Reading} {f : Flag} {full : Bool} (h : r.raise f full = .ok r') :
    r.raised f = false ∧ (∀ f', r'.raised f' = (decide (f = f') || r.raised f')) ∧ (∀ s, r'.held s = r.held s) ∧
      r'.pending = r.pending := by
  cases f with
  | help => cases h
  | version => cases h
  | verbose =>
    simp only [raise] at h
    split at h
    · cases h
    · next hfree =>
      cases h
      refine ⟨by simpa [raised] using hfree, fun f' => ?_, fun s => ?_, rfl⟩
      · cases f' <;> rfl
      · cases s <;> rfl
  | timings =>
    simp only [raise] at h
    split at h
    · cases h
    · next hfree =>
      cases h
      refine ⟨by simpa [raised] using hfree, fun f' => ?_, fun s => ?_, rfl⟩
      · cases f' <;> rfl
      · cases s <;> rfl

/-- A flag that a request can have is raised if it has not been before. How much help would be shown does not
matter. -/
theorem exists_raise {r : Reading} {c : Request} {f : Flag} (hfree : r.raised f = false) (hf : c.raised f = true) :
    ∃ r', r.raise f false = .ok r' := by
  cases f with
  | help => cases hf
  | version => cases hf
  | verbose =>
    have hnot : r.verbose = false := hfree
    simp [raise, hnot]
  | timings =>
    have hnot : r.timings = false := hfree
    simp [raise, hnot]

/-! ## Taking what is given -/

/-- Takes something that is given, at once. -/
def give (r : Reading) : Given → Except Stop Reading
  | .flag f => r.raise f false
  | .value s v => r.assign s v

/-- Takes some things one after the other. -/
def giveAll (r : Reading) (gs : List Given) : Except Stop Reading := gs.foldlM give r

@[simp] theorem giveAll_nil (r : Reading) : r.giveAll [] = .ok r := rfl

theorem giveAll_cons (r : Reading) (g : Given) (gs : List Given) :
    r.giveAll (g :: gs) = r.give g >>= fun r' => r'.giveAll gs := rfl

@[simp] theorem giveAll_singleton (r : Reading) (g : Given) : r.giveAll [g] = r.give g := by
  rw [giveAll_cons]
  exact bind_pure _

theorem giveAll_append (r : Reading) (gs gs' : List Given) :
    r.giveAll (gs ++ gs') = r.giveAll gs >>= fun r' => r'.giveAll gs' := List.foldlM_append

/-- Taking something at once leaves what is pending as it is. -/
theorem pending_of_give {r r' : Reading} {g : Given} (h : r.give g = .ok r') : r'.pending = r.pending := by
  cases g with
  | flag f =>
    obtain ⟨-, -, -, hpending⟩ := raise_eq_ok h
    exact hpending
  | value s v =>
    obtain ⟨-, -, -, -, hpending⟩ := assign_eq_ok h
    exact hpending

theorem pending_of_giveAll {r r' : Reading} {gs : List Given} (h : r.giveAll gs = .ok r') :
    r'.pending = r.pending := by
  induction gs generalizing r with
  | nil =>
    cases h
    rfl
  | cons g gs ih =>
    obtain ⟨r₁, hg, hgs⟩ := bind_eq_ok_iff.mp h
    exact (ih hgs).trans (pending_of_give hg)

/-- What a reading holds and what is still given are together what a request asks for. -/
structure Completes (c : Request) (r : Reading) (gs : List Given) : Prop where
  /-- the values that are held, with those that are still given behind them, are those of the request -/
  values : ∀ s, r.held s ++ valuesOf s gs = c.values s
  /-- those that are still given pass their checks -/
  admissible : ∀ s, ∀ v ∈ valuesOf s gs, Admissible s v
  /-- the flags that are raised, with those that are still given, are those of the request -/
  flags : ∀ f, (r.raised f).toNat + gs.count (.flag f) = (c.raised f).toNat
  /-- there is no listing, or no command for one -/
  exclusive : c.listing = none ∨ c.command = none

variable {c : Request} {r : Reading} {gs : List Given}

/-- A value that is still given finds its place free. -/
theorem Completes.held_eq_nil {s : Slot} {v : Bytes} (h : Completes c r (.value s v :: gs)) : r.held s = [] := by
  have hlength := c.length_values_le s
  rw [← h.values s, valuesOf_value, if_pos rfl, List.length_append, List.length_cons] at hlength
  exact List.eq_nil_of_length_eq_zero (by omega)

/-- A flag that is still given has not been raised, and is one that a request can have. -/
theorem Completes.raised_eq {f : Flag} (h : Completes c r (.flag f :: gs)) :
    r.raised f = false ∧ c.raised f = true := by
  have hcount := h.flags f
  rw [List.count_cons_self] at hcount
  cases hr : r.raised f <;> cases hc : c.raised f <;> simp [hr, hc] at hcount ⊢

theorem completes_value {s : Slot} {v : Bytes} :
    Completes c r (.value s v :: gs) ↔ ∃ r', r.assign s v = .ok r' ∧ Completes c r' gs := by
  -- the value that is taken stands behind those that are held, and no more before those that are given
  have hmoved : ∀ {r' : Reading}, (∀ s', r'.held s' = if s = s' then [v] else r.held s') → r.held s = [] →
      ∀ s', r'.held s' ++ valuesOf s' gs = r.held s' ++ valuesOf s' (.value s v :: gs) := by
    intro r' hheld hfree s'
    rw [hheld, valuesOf_value]
    by_cases hs : s = s'
    · subst hs
      simp [hfree]
    · simp [hs]
  constructor
  · intro h
    have hv : Admissible s v := h.admissible s v (by simp [valuesOf_value])
    obtain ⟨r', hr'⟩ := exists_assign h.held_eq_nil hv
    obtain ⟨hfree, -, hheld, hraised, -⟩ := assign_eq_ok hr'
    refine ⟨r', hr', ⟨fun s' => ?_, fun s' w hw => ?_, fun f => ?_, h.exclusive⟩⟩
    · rw [hmoved hheld hfree]
      exact h.values s'
    · refine h.admissible s' w ?_
      rw [valuesOf_value]
      split
      · exact List.mem_cons_of_mem _ hw
      · exact hw
    · rw [hraised]
      simpa using h.flags f
  · rintro ⟨r', hr', h⟩
    obtain ⟨hfree, hv, hheld, hraised, -⟩ := assign_eq_ok hr'
    refine ⟨fun s' => ?_, fun s' w hw => ?_, fun f => ?_, h.exclusive⟩
    · rw [← hmoved hheld hfree]
      exact h.values s'
    · rw [valuesOf_value] at hw
      split at hw
      · next hs =>
        subst hs
        rcases List.mem_cons.mp hw with rfl | hw
        · exact hv
        · exact h.admissible s w hw
      · exact h.admissible s' w hw
    · rw [← h.flags f, hraised]
      simp

theorem completes_flag {f : Flag} :
    Completes c r (.flag f :: gs) ↔ ∃ r', r.raise f false = .ok r' ∧ Completes c r' gs := by
  -- the flag that is taken is counted among those that are raised, and no more among those that are given
  have hmoved : ∀ {r' : Reading}, (∀ f', r'.raised f' = (decide (f = f') || r.raised f')) → r.raised f = false →
      ∀ f', (r'.raised f').toNat + gs.count (.flag f') =
        (r.raised f').toNat + (Given.flag f :: gs).count (.flag f') := by
    intro r' hraised hfree f'
    rw [hraised]
    by_cases hf : f = f'
    · subst hf
      simp [hfree]
      omega
    · simp [hf]
  constructor
  · intro h
    obtain ⟨hfree, hc⟩ := h.raised_eq
    obtain ⟨r', hr'⟩ := exists_raise hfree hc
    obtain ⟨-, hraised, hheld, -⟩ := raise_eq_ok hr'
    refine ⟨r', hr', ⟨fun s => ?_, h.admissible, fun f' => ?_, h.exclusive⟩⟩
    · rw [hheld]
      exact h.values s
    · rw [hmoved hraised hfree]
      exact h.flags f'
  · rintro ⟨r', hr', h⟩
    obtain ⟨hfree, hraised, hheld, -⟩ := raise_eq_ok hr'
    refine ⟨fun s => ?_, h.admissible, fun f' => ?_, h.exclusive⟩
    · rw [← hheld]
      exact h.values s
    · rw [← hmoved hraised hfree]
      exact h.flags f'

/-- One thing that is taken goes from the rest to the reading. -/
theorem completes_cons {g : Given} : Completes c r (g :: gs) ↔ ∃ r', r.give g = .ok r' ∧ Completes c r' gs := by
  cases g with
  | flag f => exact completes_flag
  | value s v => exact completes_value

/-- A reading holds the values of a request when its parts are those of the request. -/
theorem held_eq_values_iff :
    (∀ s, r.held s = c.values s) ↔
      r.kind = some c.kind ∧ r.root = c.root ∧ r.command = c.command ∧ r.listing = c.listing := by
  constructor
  · intro h
    refine ⟨?_, ?_, ?_, ?_⟩
    · have hkind := h .kind
      cases hr : r.kind with
      | none => simp [held, Request.values, hr] at hkind
      | some a =>
        simp only [held, Request.values, hr, Option.toList_some, List.map_cons, List.map_nil, List.cons.injEq,
          and_true] at hkind
        rw [Artifact.letter_injective hkind]
    · simpa [held, Request.values] using congrArg List.head? (h .root)
    · have hcommand : r.command.toList = c.command.toList :=
        (List.map_inj_right fun _ _ => Utf8.encode_injective).mp (h .command)
      simpa using congrArg List.head? hcommand
    · simpa [held, Request.values] using congrArg List.head? (h .listing)
  · rintro ⟨hkind, hroot, hcommand, hlisting⟩ s
    cases s with
    | kind => simp [held, Request.values, hkind]
    | root => simp [held, Request.values, hroot]
    | command => simp [held, Request.values, hcommand]
    | listing => simp [held, Request.values, hlisting]

/-- A reading has met the flags of a request when its parts are those of the request. -/
theorem raised_eq_raised_iff : (∀ f, r.raised f = c.raised f) ↔ r.verbose = c.verbose ∧ r.timings = c.timings := by
  constructor
  · intro h
    exact ⟨h .verbose, h .timings⟩
  · rintro ⟨hverbose, htimings⟩ f
    cases f with
    | verbose => exact hverbose
    | timings => exact htimings
    | help => rfl
    | version => rfl

/-- What is made at the end, where nothing is pending: the request that the reading holds, unless it holds a listing
and a command for one. -/
theorem finish_eq_ok_iff (hr : r.pending = .nothing) :
    r.finish = .ok c ↔ (∀ s, r.held s = c.values s) ∧ (∀ f, r.raised f = c.raised f) ∧
      (c.listing = none ∨ c.command = none) := by
  have hsettle : r.settle = .ok r := by rw [settle, hr]
  rw [held_eq_values_iff, raised_eq_raised_iff, finish, hsettle, ok_bind]
  constructor
  · intro h
    split at h
    · split at h <;> cases h
    · next hboth =>
      split at h
      · cases h
      · next kind hkind =>
        cases h
        refine ⟨⟨hkind, rfl, rfl, rfl⟩, ⟨rfl, rfl⟩, ?_⟩
        cases hlisting : r.listing with
        | none => exact Or.inl rfl
        | some path =>
          cases hcommand : r.command with
          | none => exact Or.inr rfl
          | some line => exact absurd ⟨by simp [hlisting], by simp [hcommand]⟩ hboth
  · rintro ⟨⟨hkind, hroot, hcommand, hlisting⟩, ⟨hverbose, htimings⟩, hex⟩
    have hboth : ¬ (r.listing.isSome = true ∧ r.command.isSome = true) := by
      rw [hlisting, hcommand]
      rcases hex with hex | hex <;> simp [hex]
    rw [if_neg hboth, hkind, hroot, hcommand, hlisting, hverbose, htimings]

/-- A reading with nothing pending, to which nothing more is given, makes the request that it holds. -/
theorem completes_nil (hr : r.pending = .nothing) : Completes c r [] ↔ r.finish = .ok c := by
  rw [finish_eq_ok_iff hr]
  constructor
  · intro h
    refine ⟨fun s => ?_, fun f => ?_, h.exclusive⟩
    · simpa using h.values s
    · have hcount := h.flags f
      rw [List.count_nil, Nat.add_zero] at hcount
      cases hr : r.raised f <;> cases hc : c.raised f <;> simp [hr, hc] at hcount ⊢
  · rintro ⟨hvalues, hflags, hexclusive⟩
    refine ⟨fun s => ?_, fun s v hv => ?_, fun f => ?_, hexclusive⟩
    · rw [valuesOf_nil, List.append_nil]
      exact hvalues s
    · cases hv
    · rw [hflags]
      rfl

/-- What comes first of the things that are given can be taken before the rest. -/
theorem completes_append {gs' : List Given} :
    Completes c r (gs ++ gs') ↔ ∃ r', r.giveAll gs = .ok r' ∧ Completes c r' gs' := by
  induction gs generalizing r with
  | nil => simp
  | cons g gs ih =>
    rw [List.cons_append, completes_cons, giveAll_cons]
    constructor
    · rintro ⟨r₁, hg, h⟩
      rw [hg, ok_bind]
      exact ih.mp h
    · rintro ⟨r', hgs, h⟩
      obtain ⟨r₁, hg, hgs⟩ := bind_eq_ok_iff.mp hgs
      exact ⟨r₁, hg, ih.mpr ⟨r', hgs, h⟩⟩

/-- At the start, all of it is still to be given. -/
theorem completes_start : Completes c start gs ↔ c.MadeOf gs := by
  have hheld : ∀ s, start.held s = [] := fun s => by cases s <;> rfl
  have hraised : ∀ f, start.raised f = false := fun f => by cases f <;> rfl
  constructor
  · intro h
    refine ⟨fun s => ?_, fun f => ?_, ?_, ?_, h.exclusive⟩
    · simpa [hheld] using h.values s
    · simpa [hraised] using h.flags f
    · intro hroot
      refine h.admissible .root [] ?_ rfl
      have hvalues := h.values .root
      rw [hheld, List.nil_append] at hvalues
      simp [hvalues, Request.values, hroot]
    · intro hlisting
      refine h.admissible .listing [] ?_ rfl
      have hvalues := h.values .listing
      rw [hheld, List.nil_append] at hvalues
      simp [hvalues, Request.values, hlisting]
  · intro h
    refine ⟨fun s => ?_, fun s v hv => ?_, fun f => ?_, h.exclusive⟩
    · rw [hheld]
      exact h.values s
    · rw [h.values s] at hv
      cases s with
      | kind => exact ⟨c.kind, List.mem_singleton.mp hv⟩
      | root =>
        rintro rfl
        exact h.root_ne_nil (Option.mem_toList.mp hv)
      | command =>
        obtain ⟨t, -, rfl⟩ := List.mem_map.mp hv
        exact ⟨t, rfl⟩
      | listing =>
        rintro rfl
        exact h.listing_ne_nil (Option.mem_toList.mp hv)
    · simpa [hraised] using h.flags f

end Reading

end ErrnoBindings
