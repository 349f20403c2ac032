import ErrnoBindings.Command.Basic
import ErrnoBindings.Proofs.Text.Layout

/-!
# Command lines in their normal form

A command line is split at blanks, and a command is described by its words with single spaces between them. The
description of a command that came from a line is thus a line again, with the width of the gaps forgotten. Splitting
it gives the same command (`Command.ofLine_of_normal?`), because words that are joined by single spaces are taken
apart again.

So a line has a normal form as soon as it has a word, the normal form of that is itself, and lines make the same
command exactly if their normal forms are equal (`Command.normal_ofLine`).
-/

namespace ErrnoBindings.Command

/-- The normal form of a command line: how the command that it makes is described. A line without a word has none. -/
def normal? (line : Text) : Option Text := (ofLine line).map describe

/-- A line makes the command of its words. -/
theorem ofLine_eq_some_iff {line : Text} {c : Command} :
    ofLine line = some c ↔
      ∃ program arguments, words line = program :: arguments ∧
        c = ⟨Utf8.encode program, arguments.map Utf8.encode⟩ := by
  constructor
  · intro h
    cases hwords : words line with
    | nil =>
      rw [ofLine_eq_none_iff.mpr hwords] at h
      cases h
    | cons program arguments =>
      rw [ofLine_of_words hwords] at h
      exact ⟨program, arguments, rfl, (Option.some.inj h).symm⟩
  · rintro ⟨program, arguments, hwords, rfl⟩
    exact ofLine_of_words hwords

/-- The normal form of a line is its words with single spaces between them. -/
theorem normal?_of_words {line program : Text} {arguments : List Text} (h : words line = program :: arguments) :
    normal? line = some (joinWords (program :: arguments)) := by
  rw [normal?, ofLine_of_words h, Option.map_some, describe_encode]

/-- A command whose program and arguments are words is made by the line that describes it. -/
theorem ofLine_describe {program : Text} {arguments : List Text} (h : ∀ w ∈ program :: arguments, IsWord w) :
    ofLine (describe ⟨Utf8.encode program, arguments.map Utf8.encode⟩) =
      some ⟨Utf8.encode program, arguments.map Utf8.encode⟩ := by
  rw [describe_encode]
  exact ofLine_of_words (words_joinWords h)

/-- A command that a line made is made by its description too. -/
theorem ofLine_describe_of_ofLine {line : Text} {c : Command} (h : ofLine line = some c) :
    ofLine (describe c) = some c := by
  obtain ⟨program, arguments, hwords, rfl⟩ := ofLine_eq_some_iff.mp h
  refine ofLine_describe fun w hw => isWord_of_mem_words (t := line) ?_
  rw [hwords]
  exact hw

/-- A line and its normal form make the same command. -/
theorem ofLine_of_normal? {line text : Text} (h : normal? line = some text) : ofLine text = ofLine line := by
  obtain ⟨c, hc, rfl⟩ := Option.map_eq_some_iff.mp h
  rw [hc]
  exact ofLine_describe_of_ofLine hc

/-- What is in its normal form stays as it is. -/
theorem normal?_of_normal? {line text : Text} (h : normal? line = some text) : normal? text = some text := by
  rw [normal?, ofLine_of_normal? h]
  exact h

/-- Lines make the same command, or both make none, exactly if they have the same normal form, or both have none. -/
theorem normal?_eq_iff {line line' : Text} : normal? line = normal? line' ↔ ofLine line = ofLine line' := by
  constructor
  · intro h
    cases hline : normal? line with
    | none =>
      have hline' : normal? line' = none := h ▸ hline
      rw [Option.map_eq_none_iff.mp hline, Option.map_eq_none_iff.mp hline']
    | some text =>
      have hline' : normal? line' = some text := h ▸ hline
      rw [← ofLine_of_normal? hline, ← ofLine_of_normal? hline']
  · intro h
    rw [normal?, normal?, h]

/-- **Splitting and describing are inverse to each other up to blanks.** A line makes no command exactly if it is
blank. The command that it makes otherwise has the words of the line for its program and its arguments, in order; its
description has single spaces between them, and makes the same command. The normal form of a normal form is itself,
and lines have the same one exactly if they make the same command. -/
theorem normal_ofLine :
    (∀ line, ofLine line = none ↔ IsGap line) ∧
      (∀ line c, ofLine line = some c →
        ∃ program arguments, c = ⟨Utf8.encode program, arguments.map Utf8.encode⟩ ∧
          (∀ w ∈ program :: arguments, IsWord w) ∧ Runs line (program :: arguments) ∧
          describe c = joinWords (program :: arguments) ∧ ofLine (describe c) = some c) ∧
      (∀ line text, normal? line = some text → normal? text = some text) ∧
      ∀ line line', ofLine line = ofLine line' ↔ normal? line = normal? line' := by
  refine ⟨fun line => ofLine_eq_none_iff.trans words_eq_nil_iff, fun line c h => ?_,
    fun line text => normal?_of_normal?, fun line line' => normal?_eq_iff.symm⟩
  obtain ⟨program, arguments, hwords, rfl⟩ := ofLine_eq_some_iff.mp h
  refine ⟨program, arguments, rfl, fun w hw => ?_, runs_iff.mpr hwords.symm, describe_encode program arguments,
    ofLine_describe_of_ofLine h⟩
  rw [← hwords] at hw
  exact isWord_of_mem_words hw

/-- A line with gaps of several kinds and widths, and a word with an accent. -/
def gappyLine : Text := "\u3000cat\t\u00a0 relevés\n x\u2028".toList

theorem normal_ofLine_gappy :
    (∃ c, ofLine gappyLine = some c ∧ describe c = "cat relevés x".toList ∧ ofLine (describe c) = some c) ∧
      normal? gappyLine = some "cat relevés x".toList ∧
      normal? "cat relevés x".toList = some "cat relevés x".toList ∧
      ofLine gappyLine = ofLine "cat relevés x".toList ∧
      ofLine gappyLine ≠ ofLine "cat relevésx".toList := by
  have hwords : words gappyLine = ["cat".toList, "relevés".toList, "x".toList] := by decide
  have hnormal : normal? gappyLine = some "cat relevés x".toList := normal?_of_words hwords
  obtain ⟨-, hsplit, hagain, hsame⟩ := normal_ofLine
  refine ⟨?_, hnormal, hagain _ _ hnormal, (hsame _ _).mpr (hnormal.trans (hagain _ _ hnormal).symm), fun h => ?_⟩
  · obtain ⟨program, arguments, -, -, -, -, hback⟩ := hsplit gappyLine _ (ofLine_of_words hwords)
    exact ⟨_, ofLine_of_words hwords, describe_encode _ _, hback⟩
  · have hother : words "cat relevésx".toList = ["cat".toList, "relevésx".toList] := by decide
    have hnormals := (hsame _ _).mp h
    rw [hnormal, normal?_of_words hother] at hnormals
    exact absurd hnormals (by decide)

end ErrnoBindings.Command
