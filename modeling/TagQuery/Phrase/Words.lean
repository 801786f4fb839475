import TagQuery.Like
import TagQuery.Text.Blank

/-! Lenient matching of tag names: a phrase of several words is looked for word by word. -/
namespace TagQuery.Phrase

inductive Place where
  | char (c : Char)
  | one
  | many
  deriving DecidableEq, Repr

def placesOf : Piece → List Place
  | .lit chars => chars.map .char
  | .one => [.one]
  | .many => [.many]

def places (p : Phrase) : List Place :=
  p.pieces.flatMap placesOf

/-- Characters that divide words; a hole never does. -/
def isDelimiter (c : Char) : Bool :=
  Text.isBlank c || "-.,:;/|!()[]~+".toList.contains c

def divides : Place → Bool
  | .char c => isDelimiter c
  | _ => false

/-- Puts a place in front of what follows it, cut at the dividing places. -/
def cutBefore (x : Place) (runs : List (List Place)) : List (List Place) :=
  if divides x then [] :: runs
  else
    match runs with
    | [] => [[x]]
    | r :: rs => (x :: r) :: rs

/-- The words of a phrase: its maximal runs of places that do not divide, each once, in the
order of their first occurrence. -/
def words (p : Phrase) : List (List Place) :=
  ((p.places.foldr cutBefore [[]]).filter (· ≠ [])).eraseDups

def likePlace : Place → List Char
  | .char c => Like.escapeChar c
  | .one => ['_']
  | .many => ['%']

def wordPattern (word : List Place) : List Char :=
  '%' :: (word.flatMap likePlace ++ ['%'])

/-- The patterns of which a tag name has to match one: the words of the phrase if there are at least
two, else the phrase as it stands. -/
def lenientPatterns (p : Phrase) : List (List Char) :=
  match p.words with
  | w :: w' :: ws => (w :: w' :: ws).map wordPattern
  | _ => [p.containedPattern]

end TagQuery.Phrase
