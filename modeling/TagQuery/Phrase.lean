/-! Phrases: what a clause looks for, a text with holes for one or for any number of
characters. -/
namespace TagQuery

/-- One part of a phrase: a literal text, a hole for one character, or a hole for any run. -/
inductive Piece where
  | lit (chars : List Char)
  | one
  | many
  deriving DecidableEq, Repr

/-- A phrase has at least one piece. -/
structure Phrase where
  pieces : List Piece
  nonempty : pieces ≠ []
  deriving DecidableEq

def Piece.typed : Piece → List Char
  | .lit chars => chars
  | .one => ['?']
  | .many => ['*']

namespace Phrase

def ofPieces? : List Piece → Option Phrase
  | [] => none
  | p :: ps => some ⟨p :: ps, List.cons_ne_nil p ps⟩

def typed (p : Phrase) : List Char :=
  p.pieces.flatMap Piece.typed

end Phrase

end TagQuery
