import ErrnoBindings.Text.Basic

/-!
# Fields

When a word is filled in, what it comes to is a row of glyphs: characters that remember whether they were quoted and
whether they were filled in, places where a field stands even if nothing is in it, and gaps between fields. A row of
glyphs is then split into fields (`Fields.ofGlyphs`) at the separators, which are the characters of one variable.

A separator that is a blank only keeps fields apart; any other separator ends a field, even one with nothing in it.
-/

namespace ErrnoBindings.Utility.Shell

/-- What a word that is filled in is made of. -/
inductive Glyph where
  /-- a character: whether it was quoted, and whether a field can end at it -/
  | char (c : Char) (quoted splits : Bool)
  /-- a place where there is a field, whatever it holds -/
  | anchor
  /-- a gap between two fields -/
  | gap
  deriving DecidableEq, Repr

namespace Glyph

/-- The characters of a row of glyphs. -/
def text (gs : List Glyph) : Text :=
  gs.filterMap fun g => match g with
    | char c _ _ => some c
    | _ => none

/-- The characters of a row of glyphs, each with whether it was quoted. -/
def marked (gs : List Glyph) : List (Char × Bool) :=
  gs.filterMap fun g => match g with
    | char c quoted _ => some (c, quoted)
    | _ => none

/-- A text as glyphs. What is quoted stays in one field. -/
def ofText (quoted splits : Bool) (t : Text) : List Glyph :=
  t.map fun c => char c quoted (splits && !quoted)

end Glyph

namespace Fields

/-- The characters that separate fields when nothing else is said. -/
def standardSeparators : Text := [' ', '\t', '\n']

/-- Whether a separator is a blank. -/
def isBlankSeparator (c : Char) : Bool := standardSeparators.elem c

/-- Whether a glyph keeps fields apart without ending one. -/
def keepsApart (separators : Text) : Glyph → Bool
  | .char c _ splits => splits && separators.elem c && isBlankSeparator c
  | .anchor => false
  | .gap => true

/-- Whether a field ends at a glyph. -/
def endsField (separators : Text) : Glyph → Bool
  | .char c _ splits => splits && separators.elem c
  | .anchor => false
  | .gap => true

/-- What stands behind the separator in front: blanks, at most one that is no blank, and blanks again. -/
def behindSeparator (separators : Text) (gs : List Glyph) : List Glyph :=
  match gs.dropWhile (keepsApart separators) with
  | g :: rest => if endsField separators g then rest.dropWhile (keepsApart separators) else g :: rest
  | [] => []

/-- The fields of a row of glyphs, at most `n` of them. Each field but the last takes a glyph with it, so the number
of glyphs is enough. -/
def split (separators : Text) : Nat → List Glyph → List (List Glyph)
  | 0, _ => []
  | n + 1, gs =>
    match gs.dropWhile (keepsApart separators) with
    | [] => []
    | rest =>
      rest.takeWhile (fun g => !endsField separators g) ::
        split separators n (behindSeparator separators (rest.dropWhile fun g => !endsField separators g))

/-- The fields of a row of glyphs. -/
def ofGlyphs (separators : Text) (gs : List Glyph) : List (List Glyph) := split separators (gs.length + 1) gs

/-- What is left without the blanks at its end that keep fields apart. -/
def trimEnd (separators : Text) (gs : List Glyph) : List Glyph :=
  (gs.reverse.dropWhile (keepsApart separators)).reverse

/-- The fields of a row of glyphs for `n` places. The last place holds all that is left with the separators in it,
unless that is one field. -/
def forPlaces (separators : Text) : Nat → List Glyph → List Text
  | 0, _ => []
  | 1, gs =>
    let rest := gs.dropWhile (keepsApart separators)
    match ofGlyphs separators rest with
    | [] => [[]]
    | [field] => [Glyph.text field]
    | _ => [Glyph.text (trimEnd separators rest)]
  | n + 2, gs =>
    let rest := gs.dropWhile (keepsApart separators)
    let inField (g : Glyph) : Bool := !endsField separators g
    Glyph.text (rest.takeWhile inField) ::
      forPlaces separators (n + 1) (behindSeparator separators (rest.dropWhile inField))

end Fields

end ErrnoBindings.Utility.Shell
