/-!
# Occurrences of a text

A pattern cuts a text into pieces, at its occurrences taken from the left without
overlap. Replacing the pattern joins the pieces with something else.
-/

namespace Turnstile.Text

/-- Whether a pattern occurs in a text. -/
def occursIn (pattern : List Char) : List Char → Bool
  | [] => pattern.isEmpty
  | c :: rest => pattern.isPrefixOf (c :: rest) || occursIn pattern rest

/-- The pieces of a text between occurrences of a pattern of `width + 1` characters. The first
`passing` characters belong to an occurrence that has been found, and the piece so far is given
in reverse. -/
def piecesFrom (pattern : List Char) (width : Nat) :
    Nat → List Char → List Char → List (List Char)
  | _, piece, [] => [piece.reverse]
  | passing + 1, piece, _ :: rest => piecesFrom pattern width passing piece rest
  | 0, piece, c :: rest =>
    if pattern.isPrefixOf (c :: rest) then piece.reverse :: piecesFrom pattern width width [] rest
    else piecesFrom pattern width 0 (c :: piece) rest

/-- The pieces of a text between occurrences of a nonempty pattern. -/
def pieces (pattern text : List Char) : List (List Char) :=
  piecesFrom pattern (pattern.length - 1) 0 [] text

/-- The text with every occurrence of a nonempty pattern replaced. -/
def replaceAll (pattern replacement text : List Char) : List Char :=
  replacement.intercalate (pieces pattern text)

end Turnstile.Text
