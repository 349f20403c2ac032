import ErrnoBindings.Proofs.Arguments.Refused

/-!
# Listing or command

A command line can name a listing, or a command for one. Where it names the one, it can name the other in its place:
both command lines are accepted and ask for the same but for their sources, or both are refused
(`CommandLine.listing_or_command`).

A request is made of what is given, and what it is made of with a listing among the rest is the listing and a request
that the rest makes without any source (`Request.madeOf_listing_iff`); it is the same with a command
(`Request.madeOf_command_iff`). What they have in common is that a value that stands among others is the only one for
what it is for (`Request.values_insert_iff`).
-/

namespace ErrnoBindings

section

variable {c c₀ : Request} {gs gs' : List Given} {s : Slot} {v : Bytes}

/-- Among the things that are given a value stands for what it is for, and for nothing else. -/
theorem valuesOf_insert (s' : Slot) :
    valuesOf s' (gs ++ .value s v :: gs') =
      if s = s' then valuesOf s' gs ++ v :: valuesOf s' gs' else valuesOf s' (gs ++ gs') := by
  rw [valuesOf_append, valuesOf_append, valuesOf_value]
  split <;> rfl

theorem count_flag_insert (f : Flag) :
    (gs ++ Given.value s v :: gs').count (.flag f) = (gs ++ gs').count (.flag f) := by
  rw [List.count_append, List.count_cons_of_ne (by simp), List.count_append]

/-- The values of a request are given with one of them among the others exactly when this is the one that it has, and
the others are the values of the request without it. -/
theorem Request.values_insert_iff (hless : ∀ s', c₀.values s' = if s = s' then [] else c.values s') :
    (∀ s', valuesOf s' (gs ++ .value s v :: gs') = c.values s') ↔
      c.values s = [v] ∧ ∀ s', valuesOf s' (gs ++ gs') = c₀.values s' := by
  constructor
  · intro h
    have hs := h s
    rw [valuesOf_insert, if_pos rfl] at hs
    have hlength := c.length_values_le s
    rw [← hs, List.length_append, List.length_cons] at hlength
    have hgs : valuesOf s gs = [] := List.eq_nil_of_length_eq_zero (by omega)
    have hgs' : valuesOf s gs' = [] := List.eq_nil_of_length_eq_zero (by omega)
    refine ⟨by rw [← hs, hgs, hgs', List.nil_append], fun s' => ?_⟩
    have hs' := h s'
    rw [valuesOf_insert] at hs'
    rw [hless]
    by_cases he : s = s'
    · subst he
      rw [if_pos rfl, valuesOf_append, hgs, hgs', List.nil_append]
    · rw [if_neg he] at hs' ⊢
      exact hs'
  · rintro ⟨hv, h⟩ s'
    have hs' := h s'
    rw [hless] at hs'
    rw [valuesOf_insert]
    by_cases he : s = s'
    · subst he
      rw [if_pos rfl, valuesOf_append, List.append_eq_nil_iff] at hs'
      rw [if_pos rfl, hs'.1, hs'.2, hv, List.nil_append]
    · rw [if_neg he] at hs' ⊢
      exact hs'

/-- What a request is made of that has a listing. -/
theorem Request.madeOf_listing_iff {path : Bytes} :
    c.MadeOf (gs ++ .value .listing path :: gs') ↔
      c.listing = some path ∧ c.command = none ∧ path ≠ [] ∧ { c with listing := none }.MadeOf (gs ++ gs') := by
  have hless : ∀ s', { c with listing := none }.values s' = if .listing = s' then [] else c.values s' := by
    intro s'
    cases s' <;> rfl
  have hheld : c.values .listing = [path] ↔ c.listing = some path := by
    cases h : c.listing <;> simp [values, h]
  constructor
  · intro h
    obtain ⟨hlisting, hvalues⟩ := (values_insert_iff hless).mp h.values
    rw [hheld] at hlisting
    have hpath : path ≠ [] := fun hnil => h.listing_ne_nil (hnil ▸ hlisting)
    refine ⟨hlisting, h.exclusive.resolve_left (by simp [hlisting]), hpath, hvalues, fun f => ?_, h.root_ne_nil,
      by simp, Or.inl rfl⟩
    rw [← count_flag_insert f]
    exact h.flags f
  · rintro ⟨hlisting, hcommand, hpath, h⟩
    refine ⟨(values_insert_iff hless).mpr ⟨hheld.mpr hlisting, h.values⟩, fun f => ?_, h.root_ne_nil,
      by simp [hlisting, hpath], Or.inr hcommand⟩
    rw [count_flag_insert]
    exact h.flags f

/-- What a request is made of that has a command for a listing. -/
theorem Request.madeOf_command_iff {t : Text} :
    c.MadeOf (gs ++ .value .command (Utf8.encode t) :: gs') ↔
      c.command = some t ∧ c.listing = none ∧ { c with command := none }.MadeOf (gs ++ gs') := by
  have hless : ∀ s', { c with command := none }.values s' = if .command = s' then [] else c.values s' := by
    intro s'
    cases s' <;> rfl
  have hheld : c.values .command = [Utf8.encode t] ↔ c.command = some t := by
    cases h : c.command with
    | none => simp [values, h]
    | some t' => simp [values, h]
  constructor
  · intro h
    obtain ⟨hcommand, hvalues⟩ := (values_insert_iff hless).mp h.values
    rw [hheld] at hcommand
    refine ⟨hcommand, h.exclusive.resolve_right (by simp [hcommand]), hvalues, fun f => ?_, h.root_ne_nil,
      h.listing_ne_nil, Or.inr rfl⟩
    rw [← count_flag_insert f]
    exact h.flags f
  · rintro ⟨hcommand, hlisting, h⟩
    refine ⟨(values_insert_iff hless).mpr ⟨hheld.mpr hcommand, h.values⟩, fun f => ?_, h.root_ne_nil,
      h.listing_ne_nil, Or.inl hlisting⟩
    rw [count_flag_insert]
    exact h.flags f

end

/-- A command line with a listing among its clauses and the one with a command in its place are both accepted, and ask
for the same but for their sources, or are both refused. -/
theorem CommandLine.listing_or_command {path : Bytes} {t : Text} {g g' : Clause}
    (hg : g.gives = [.value .listing path]) (hg' : g'.gives = [.value .command (Utf8.encode t)]) (hpath : path ≠ [])
    (program : Bytes) (before after : List Clause) (closing : Closing) :
    let line (g : Clause) : CommandLine := ⟨program, before ++ g :: after, closing⟩
    (∃ c : Request, Request.ofArguments (line g).arguments = .ok { c with listing := some path, command := none } ∧
        Request.ofArguments (line g').arguments = .ok { c with listing := none, command := some t }) ∨
      ∃ why why', Request.ofArguments (line g).arguments = .error (.refused why) ∧
        Request.ofArguments (line g').arguments = .error (.refused why') := by
  intro line
  have hgives : ∀ {g : Clause} {x : Given}, g.gives = [x] →
      (line g).gives = before.flatMap Clause.gives ++ x :: (after.flatMap Clause.gives ++ closing.gives) := by
    intro g x h
    simp [line, CommandLine.gives, h]
  -- what is given besides the source is the same on both lines
  let others : List Given := before.flatMap Clause.gives ++ (after.flatMap Clause.gives ++ closing.gives)
  have hlisting : ∀ c, Request.ofArguments (line g).arguments = .ok c ↔
      c.listing = some path ∧ c.command = none ∧ path ≠ [] ∧ { c with listing := none }.MadeOf others := by
    intro c
    rw [CommandLine.ofArguments_iff_madeOf, hgives hg, Request.madeOf_listing_iff]
  have hcommand : ∀ c, Request.ofArguments (line g').arguments = .ok c ↔
      c.command = some t ∧ c.listing = none ∧ { c with command := none }.MadeOf others := by
    intro c
    rw [CommandLine.ofArguments_iff_madeOf, hgives hg', Request.madeOf_command_iff]
  cases h : Request.ofArguments (line g).arguments with
  | ok c =>
    obtain ⟨hl, hc, -, hrest⟩ := (hlisting c).mp h
    refine Or.inl ⟨c, ?_, (hcommand _).mpr ⟨rfl, rfl, ?_⟩⟩
    · rw [← hl, ← hc]
    · rw [← hc]
      exact hrest
  | error stop =>
    obtain ⟨why, rfl⟩ := (line g).refuses_ofArguments stop h
    cases h' : Request.ofArguments (line g').arguments with
    | ok c =>
      obtain ⟨hc, hl, hrest⟩ := (hcommand c).mp h'
      have hok := (hlisting { c with listing := some path, command := none }).mpr ⟨rfl, rfl, hpath, hl ▸ hrest⟩
      rw [h] at hok
      cases hok
    | error stop' =>
      obtain ⟨why', rfl⟩ := (line g').refuses_ofArguments stop' h'
      exact Or.inr ⟨why, why', rfl, rfl⟩

end ErrnoBindings
