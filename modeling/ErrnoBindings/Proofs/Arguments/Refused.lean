import ErrnoBindings.Proofs.Arguments.Accepted

/-!
# Which command lines are refused

A command line that makes no request is refused, or asks for help or for the version. One that is made of clauses asks
for neither, whatever its clauses give: it makes a request or is refused (`CommandLine.refuses_ofArguments`).

Help and the version are asked for by raising their flags, and by nothing else. So it is enough that no argument of a
clause raises one (`Clause.unasking`), wherever it stands; whether it is read as part of its clause plays no role, and
the induction is on single arguments (`Reading.refuses_readAll`).
-/

namespace ErrnoBindings

/-- If this comes to nothing, then because something is refused, and not because help or the version is asked for. -/
def Refuses {α : Type} (x : Except Stop α) : Prop := ∀ stop, x = .error stop → ∃ why, stop = .refused why

theorem refuses_ok {α : Type} (a : α) : Refuses (.ok a) := fun _ h => by cases h

theorem refuses_error {α : Type} (why : Refusal) : Refuses (.error (.refused why) : Except Stop α) := by
  intro stop h
  cases h
  exact ⟨why, rfl⟩

theorem Refuses.bind {α β : Type} {x : Except Stop α} {f : α → Except Stop β} (hx : Refuses x)
    (hf : ∀ a, Refuses (f a)) : Refuses (x >>= f) := by
  cases x with
  | error stop =>
    intro stop' h
    cases h
    exact hx stop rfl
  | ok a => exact hf a

namespace Reading

variable (r : Reading)

theorem refuses_assign (s : Slot) (v : Bytes) : Refuses (r.assign s v) := by
  cases s
  all_goals
    simp only [assign]
    repeat' split
  all_goals first | exact refuses_ok _ | exact refuses_error _

theorem refuses_settle : Refuses r.settle := by
  rw [settle]
  split
  · exact refuses_ok _
  · exact refuses_assign _ _ _
  · exact refuses_error _

/-- The two flags that ask for no text can only be refused. -/
theorem refuses_raise {f : Flag} (hf : f = .verbose ∨ f = .timings) (full : Bool) : Refuses (r.raise f full) := by
  rcases hf with rfl | rfl
  · rw [raise]
    split
    · exact refuses_error _
    · exact refuses_ok _
  · rw [raise]
    split
    · exact refuses_error _
    · exact refuses_ok _

theorem refuses_readKind (k : Bytes) : Refuses (r.readKind k) := by
  rw [readKind]
  split
  · exact refuses_error _
  · exact (refuses_settle r).bind fun _ => refuses_ok _

theorem refuses_readPlain (k : Bytes) : Refuses (r.readPlain k) := by
  rw [readPlain]
  split
  · exact refuses_ok _
  · exact refuses_readKind r k

theorem refuses_finish : Refuses r.finish := by
  refine (refuses_settle r).bind fun r₀ => ?_
  repeat' split
  · exact refuses_error _
  · exact refuses_error _
  · exact refuses_error _
  · exact refuses_ok _

theorem refuses_readShort_root (bs : Bytes) : Refuses (r.readShort (Clause.rootLetter :: bs)) := by
  rw [readShort, if_pos (by decide)]
  refine (refuses_settle r).bind fun r₀ => ?_
  split
  · exact refuses_ok _
  · exact refuses_assign _ _ _

theorem refuses_readShort_verbose {bs : Bytes} (h : ∀ r : Reading, Refuses (r.readShort bs)) :
    Refuses (r.readShort (Clause.verboseLetter :: bs)) := by
  rw [readShort, if_neg (by decide), if_pos (by decide)]
  exact (refuses_settle r).bind fun r₀ => (refuses_raise r₀ (Or.inl rfl) false).bind h

/-- A long argument can ask for a text only by its name. -/
theorem refuses_readLong {body : Bytes}
    (h : ∀ f, Parameter.ofName? (splitLong body).1 = some (.flag f) → f = .verbose ∨ f = .timings) :
    Refuses (r.readLong body) := by
  simp only [readLong]
  split
  · exact refuses_error _
  · exact (refuses_settle r).bind fun r₀ => refuses_assign _ _ _
  · exact (refuses_settle r).bind fun r₀ => refuses_ok _
  · exact refuses_error _
  · next f hname _ => exact (refuses_settle r).bind fun r₀ => refuses_raise r₀ (h f hname) true

end Reading

/-- An argument that asks for no text, whatever was read before it. -/
def Unasking (a : Bytes) : Prop :=
  ∀ (r : Reading) (body : Bytes),
    (Shape.of a = .long body → Refuses (r.readLong body)) ∧ (Shape.of a = .short body → Refuses (r.readShort body))

theorem unasking_of_plain {a : Bytes} (h : Shape.of a = .plain) : Unasking a := by
  intro r body
  rw [h]
  exact ⟨Shape.noConfusion, Shape.noConfusion⟩

theorem Operand.unasking (v : Operand) : Unasking v.octets := unasking_of_plain (Shape.of_plain v.plain)

theorem unasking_of_long {body : Bytes} (hbody : body ≠ [])
    (h : ∀ f, Parameter.ofName? (splitLong body).1 = some (.flag f) → f = .verbose ∨ f = .timings) :
    Unasking (dash :: dash :: body) := by
  intro r body'
  rw [Shape.of_long hbody]
  refine ⟨fun hshape => ?_, Shape.noConfusion⟩
  cases hshape
  exact r.refuses_readLong h

theorem unasking_of_short {b : UInt8} {bs : Bytes} (hb : b ≠ dash)
    (h : ∀ r : Reading, Refuses (r.readShort (b :: bs))) : Unasking (dash :: b :: bs) := by
  intro r body'
  rw [Shape.of_short hb]
  refine ⟨Shape.noConfusion, fun hshape => ?_⟩
  cases hshape
  exact h r

theorem unasking_letters (b : Bool) (w : Bytes) : Unasking (dash :: Clause.letters b ++ w) := by
  cases b with
  | false => exact unasking_of_short (by decide) fun r => r.refuses_readShort_root w
  | true =>
    exact unasking_of_short (by decide) fun r => r.refuses_readShort_verbose fun r' => r'.refuses_readShort_root w

/-- Arguments that ask for no text make a request or are refused. -/
theorem Reading.refuses_readAll {args : List Bytes} (h : ∀ a ∈ args, Unasking a) (r : Reading) (escaped : Bool) :
    Refuses (r.readAll escaped args) := by
  induction args generalizing r escaped with
  | nil => exact refuses_ok r
  | cons a rest ih =>
    have hrest := fun r escaped => ih (fun b hb => h b (List.mem_cons_of_mem _ hb)) r escaped
    have ha := h a List.mem_cons_self r
    rw [readAll]
    split
    · exact (r.refuses_readKind a).bind fun r' => hrest r' true
    · split
      · exact hrest r true
      · next body hshape => exact ((ha body).1 hshape).bind fun r' => hrest r' false
      · next body hshape => exact ((ha body).2 hshape).bind fun r' => hrest r' false
      · exact (r.refuses_readPlain a).bind fun r' => hrest r' false

/-- No argument of a clause asks for a text. -/
theorem Clause.unasking (g : Clause) : ∀ a ∈ g.arguments, Unasking a := by
  have hname : ∀ o : ValueOption, ∀ f,
      Parameter.ofName? (Utf8.encode o.name) = some (.flag f) → f = .verbose ∨ f = .timings := by
    intro o f h
    rw [o.ofName?_name] at h
    cases h
  cases g with
  | verbose short =>
    cases short with
    | false =>
      refine List.forall_mem_singleton.mpr (unasking_of_long (by decide) fun f h => ?_)
      cases h
      exact Or.inl rfl
    | true =>
      exact List.forall_mem_singleton.mpr
        (unasking_of_short (by decide) fun r => r.refuses_readShort_verbose fun r' => refuses_ok r')
  | timings =>
    refine List.forall_mem_singleton.mpr (unasking_of_long (by decide) fun f h => ?_)
    cases h
    exact Or.inr rfl
  | joined o v =>
    have hjoined : Unasking (dash :: dash :: (Utf8.encode o.name ++ equalsSign :: v)) := by
      refine unasking_of_long (by simp) fun f h => ?_
      rw [splitLong_append o.equalsSign_notMem_name] at h
      exact hname o f h
    exact List.forall_mem_singleton.mpr hjoined
  | apart o v =>
    refine List.forall_mem_cons.mpr ⟨unasking_of_long o.name_ne_nil fun f h => ?_, ?_⟩
    · rw [splitLong_of_notMem o.equalsSign_notMem_name] at h
      exact hname o f h
    · exact List.forall_mem_singleton.mpr v.unasking
  | root b v =>
    refine List.forall_mem_cons.mpr ⟨?_, List.forall_mem_singleton.mpr v.unasking⟩
    have hletters := unasking_letters b []
    rwa [List.append_nil] at hletters
  | rootAttached b w => exact List.forall_mem_singleton.mpr (unasking_letters b w.octets)
  | kind a => exact List.forall_mem_singleton.mpr (unasking_of_plain (Shape.of_letter a))

theorem Closing.unasking (closing : Closing) : ∀ a ∈ closing.arguments, Unasking a := by
  have hdashes : Unasking [dash, dash] := fun r body => ⟨Shape.noConfusion, Shape.noConfusion⟩
  cases closing with
  | absent => exact fun _ h => by cases h
  | dashes => exact List.forall_mem_singleton.mpr hdashes
  | kind a =>
    exact List.forall_mem_cons.mpr ⟨hdashes, List.forall_mem_singleton.mpr (unasking_of_plain (Shape.of_letter a))⟩

/-- A command line that is made of clauses makes a request or is refused. -/
theorem CommandLine.refuses_ofArguments (line : CommandLine) : Refuses (Request.ofArguments line.arguments) := by
  refine (Reading.start.refuses_readAll ?_ false).bind fun r => r.refuses_finish
  intro a ha
  rcases List.mem_append.mp ha with ha | ha
  · obtain ⟨g, -, hg⟩ := List.mem_flatMap.mp ha
    exact g.unasking a hg
  · exact line.closing.unasking a ha

end ErrnoBindings
