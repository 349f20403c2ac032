import ErrnoBindings.Proofs.Listing.Composition
import ErrnoBindings.Proofs.Text.Layout

/-!
# What a malformed row points at

The fault of a malformed row keeps the line and a span of it, counted in octets. A report cuts the line there, so the
span must lie within the line and must not begin or end inside of a character, however many octets the blanks and the
symbol in front of it take.

Both follow from how a span comes about: it always marks a piece of the line, with the pieces before and behind it
being whole characters too (`Span.marking`). Where a word is missing the piece is the whole line
(`Span.pointsAt_line`). Where the value is invalid it is the second word (`Span.pointsAt_second`), and the line falls
into the gap in front, the symbol, the gap behind that, the marked word and what follows (`exists_pieces_of_laid`).
`Span.PointsAt` puts together what this means for a report.
-/

namespace ErrnoBindings

/-- The place behind `n` octets of a text is at an end of it or between two characters. -/
def IsBoundary (t : Text) (n : Nat) : Prop := ∃ front back, t = front ++ back ∧ byteLength front = n

namespace Span

/-- The octets of a line that a span selects. -/
def octets (s : Span) (line : Text) : Bytes := ((Utf8.encode line).drop s.offset).take s.length

/-- The span of a piece of text that stands behind another. -/
def marking (front piece : Text) : Span := ⟨byteLength front, byteLength piece⟩

/-- A span that marks a piece of a line selects the octets of that piece. -/
theorem octets_marking (front piece back : Text) :
    (marking front piece).octets (front ++ (piece ++ back)) = Utf8.encode piece := by
  have hfront : (Utf8.encode front).length = (marking front piece).offset := Utf8.length_encode front
  have hpiece : (Utf8.encode piece).length = (marking front piece).length := Utf8.length_encode piece
  rw [octets, Utf8.encode_append, Utf8.encode_append, List.drop_left' hfront, List.take_left' hpiece]

/-- A span points at what is wrong with a line. -/
structure PointsAt (s : Span) (line : Text) (defect : RowDefect) : Prop where
  /-- it ends within the line -/
  bounded : s.offset + s.length ≤ (Utf8.encode line).length
  /-- it begins at a boundary between characters -/
  first : IsBoundary line s.offset
  /-- it ends at such a boundary -/
  last : IsBoundary line (s.offset + s.length)
  /-- where the symbol or the value is missing, it is the whole line -/
  whole : defect ≠ .invalidValue → s.offset = 0 ∧ s.length = (Utf8.encode line).length
  /-- where the value is invalid, it selects the second word: blanks, if any, the first word and at least one blank
  stand in front of it, and a blank stands behind it, if anything does -/
  second : defect = .invalidValue → ∃ lead symbol gap word back rest,
    line = lead ++ symbol ++ gap ++ word ++ back ∧ IsGap lead ∧ IsWord symbol ∧ IsGap gap ∧ gap ≠ [] ∧ IsWord word ∧
      EndsWord back ∧ Runs line (symbol :: word :: rest) ∧ s.offset = byteLength (lead ++ symbol ++ gap) ∧
      s.octets line = Utf8.encode word

/-- A span that marks a piece of a line lies within the line, between characters. -/
theorem inside_marking (front piece back : Text) :
    (marking front piece).offset + (marking front piece).length ≤ (Utf8.encode (front ++ (piece ++ back))).length ∧
      IsBoundary (front ++ (piece ++ back)) (marking front piece).offset ∧
      IsBoundary (front ++ (piece ++ back)) ((marking front piece).offset + (marking front piece).length) := by
  refine ⟨?_, ⟨front, piece ++ back, rfl, rfl⟩, ⟨front ++ piece, back, ?_, ?_⟩⟩
  · rw [Utf8.length_encode, byteLength_append, byteLength_append, ← Nat.add_assoc]
    exact Nat.le_add_right _ _
  · rw [List.append_assoc]
  · rw [byteLength_append]
    rfl

/-- The whole line is pointed at where a word is missing. -/
theorem pointsAt_line (line : Text) {defect : RowDefect} (h : defect ≠ .invalidValue) :
    PointsAt ⟨0, byteLength line⟩ line defect := by
  obtain ⟨hbounded, hfirst, hlast⟩ := inside_marking [] line []
  rw [List.nil_append, List.append_nil] at hbounded hfirst hlast
  exact ⟨hbounded, hfirst, hlast, fun _ => ⟨rfl, (Utf8.length_encode line).symm⟩, fun h' => absurd h' h⟩

end Span

/-! ## The second word of a line -/

/-- Where a line has a second word, it falls into five pieces: a gap that may be empty, the first word, a gap that is
not, the second word, and what follows. The offset of the second word counts the first three. -/
theorem exists_pieces_of_laid {line : Text} {first second : Word} {ws : List Word}
    (h : Laid 0 line (first :: second :: ws)) :
    ∃ lead gap back, line = lead ++ first.text ++ gap ++ second.text ++ back ∧ IsGap lead ∧ IsWord first.text ∧
      IsGap gap ∧ gap ≠ [] ∧ IsWord second.text ∧ EndsWord back ∧
      second.offset = byteLength (lead ++ first.text ++ gap) := by
  cases h with
  | @word _ lead w _ _ hlead hw hend hrest =>
    cases hrest with
    | @word _ gap v back _ hgap hv hback _ =>
      have hne : gap ≠ [] := by
        rintro rfl
        exact hv.not_endsWord back hend
      refine ⟨lead, gap, back, ?_, hlead, hw, hgap, hne, hv, hback, ?_⟩
      · simp only [List.append_assoc]
      · simp only [byteLength_append, Nat.zero_add]

/-- The second word is pointed at where it is no value. -/
theorem Span.pointsAt_second {line : Text} {first second : Word} {ws : List Word}
    (h : Laid 0 line (first :: second :: ws)) :
    PointsAt ⟨second.offset, byteLength second.text⟩ line .invalidValue := by
  obtain ⟨lead, gap, back, hline, hlead, hfirst, hgap, hne, hsecond, hback, hoffset⟩ := exists_pieces_of_laid h
  have hspan : (⟨second.offset, byteLength second.text⟩ : Span) = marking (lead ++ first.text ++ gap) second.text := by
    rw [hoffset]
    rfl
  have hpieces : line = lead ++ first.text ++ gap ++ (second.text ++ back) := by
    rw [hline, List.append_assoc]
  obtain ⟨hbounded, hbegin, hend⟩ := inside_marking (lead ++ first.text ++ gap) second.text back
  have hoctets := octets_marking (lead ++ first.text ++ gap) second.text back
  rw [← hpieces] at hbounded hbegin hend hoctets
  rw [hspan]
  refine ⟨hbounded, hbegin, hend, fun hno => absurd rfl hno, fun _ => ?_⟩
  exact ⟨lead, first.text, gap, second.text, back, ws.map Word.text, hline, hlead, hfirst, hgap, hne, hsecond, hback,
    ⟨_, h, rfl⟩, rfl, hoctets⟩

/-- A line that is no row is refused with its number, the line itself, and a span that points at what is wrong. -/
theorem Row.exists_pointsAt {lineNo : Nat} {line : Text} {f : Fault} (h : Row.ofLine lineNo line = .error f) :
    ∃ defect span, f = .malformedRow lineNo defect line span ∧ span.PointsAt line defect := by
  unfold Row.ofLine at h
  split at h
  · cases h
    exact ⟨_, _, rfl, Span.pointsAt_line line (by decide)⟩
  · cases h
    exact ⟨_, _, rfl, Span.pointsAt_line line (by decide)⟩
  · next symbol second rest hlocate =>
    split at h
    · cases h
      refine ⟨.invalidValue, _, rfl, ?_⟩
      rw [Nat.add_sub_cancel_left]
      exact Span.pointsAt_second (locateWords_eq_iff.mp hlocate)
    · cases h

/-- **A malformed row points at the right octets**, where it is a line by itself and where it is the line at which a
listing stops. -/
theorem malformed_pointsAt :
    (∀ lineNo line f, Row.ofLine lineNo line = .error f →
      ∃ defect span, f = .malformedRow lineNo defect line span ∧ span.PointsAt line defect) ∧
    ∀ text f, Table.ofListing text = .error f →
      ∃ i line defect span, (lines text)[i]? = some line ∧ StopsAt (lines text) i f ∧
        f = .malformedRow (i + 1) defect line span ∧ span.PointsAt line defect := by
  refine ⟨fun lineNo line f h => Row.exists_pointsAt h, fun text f h => ?_⟩
  obtain ⟨i, line, hline, herror, hplace, hbefore⟩ := Table.ofListing_eq_error_iff.mp h
  obtain ⟨defect, span, hf, hpoints⟩ := Row.exists_pointsAt herror
  exact ⟨i, line, defect, span, hline, ⟨line, hline, herror, hplace, hbefore⟩, hf, hpoints⟩

/-- A line with blanks of one, two and three octets, and a symbol with an accent. -/
def accentedLine : Text := "\u3000É\u00a0\t\u20031x0 input".toList

theorem malformed_pointsAt_accented :
    Table.ofListing ("EIO 5\n".toList ++ accentedLine) =
        .error (.malformedRow 2 .invalidValue accentedLine ⟨11, 3⟩) ∧
      (⟨11, 3⟩ : Span).PointsAt accentedLine .invalidValue ∧
      (⟨11, 3⟩ : Span).octets accentedLine = Utf8.encode "1x0".toList := by
  have hread : Table.ofListing ("EIO 5\n".toList ++ accentedLine) =
      .error (.malformedRow 2 .invalidValue accentedLine ⟨11, 3⟩) := rfl
  obtain ⟨i, line, defect, span, -, -, hf, hpoints⟩ := malformed_pointsAt.2 _ _ hread
  cases hf
  exact ⟨hread, hpoints, rfl⟩

end ErrnoBindings
