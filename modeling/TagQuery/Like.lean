import TagQuery.Phrase

/-! Patterns of the relation `LIKE` with the escape character `\`: their writing from phrases,
their reading into tokens, and the test of a value against one. -/
namespace TagQuery.Like

/-- A character as a pattern that only it matches. -/
def escapeChar (c : Char) : List Char :=
  if c == '\\' || c == '_' || c == '%' then ['\\', c] else [c]

def escape (text : List Char) : List Char :=
  text.flatMap escapeChar

def ofPiece : Piece → List Char
  | .lit chars => escape chars
  | .one => ['_']
  | .many => ['%']

inductive Token where
  | char (c : Char)
  | one
  | many
  | never
  deriving DecidableEq, Repr

/-- Adds a token to those read so far, last first. Adjacent runs are one run. -/
def pushToken : List Token → Token → List Token
  | .many :: read, .many => .many :: read
  | read, t => t :: read

/-- Reads the rest of a pattern. An escape character with nothing after it matches nothing. -/
def tokensFrom (read : List Token) : List Char → List Token
  | [] => read.reverse
  | '\\' :: c :: rest => tokensFrom (.char c :: read) rest
  | c :: rest =>
    tokensFrom (pushToken read
      (if c == '\\' then .never else if c == '_' then .one else if c == '%' then .many
        else .char c)) rest

def tokens (pattern : List Char) : List Token :=
  tokensFrom [] pattern

/-- The representative under which characters are compared: ASCII letters regardless of case,
and U+FFFD for the two code points after it. -/
def key (c : Char) : Char :=
  if c.toNat == 0xFFFE || c.toNat == 0xFFFF then Char.ofNat 0xFFFD else c.toLower

/-- How matching ended. After `exhausted` no later start in the value can match either. -/
inductive Outcome where
  | matched
  | failed
  | exhausted
  deriving DecidableEq, Repr

/-- Tries the rest of a pattern at every suffix of the value, the longest first. -/
def scan (rest : List Char → Outcome) : List Char → Outcome
  | [] =>
    match rest [] with
    | .matched => .matched
    | _ => .exhausted
  | c :: value =>
    match rest (c :: value) with
    | .failed => scan rest value
    | outcome => outcome

def run : List Token → List Char → Outcome
  | [], [] => .matched
  | [], _ :: _ => .failed
  | .many :: pattern, value => scan (run pattern) value
  | .one :: pattern, _ :: value => run pattern value
  | .char a :: pattern, c :: value => if key a == key c then run pattern value else .failed
  | _ :: _, _ => .failed

/-- Values and patterns end at the first U+0000. -/
def upToNul (text : List Char) : List Char :=
  text.takeWhile (· != Char.ofNat 0)

def holds (pattern value : List Char) : Bool :=
  run (tokens (upToNul pattern)) (upToNul value) == .matched

end TagQuery.Like

namespace TagQuery.Phrase

def exactPattern (p : Phrase) : List Char :=
  p.pieces.flatMap Like.ofPiece

def containedPattern (p : Phrase) : List Char :=
  '%' :: (p.exactPattern ++ ['%'])

end TagQuery.Phrase
