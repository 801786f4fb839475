import TagQuery.Text.Fold
import TagQuery.Text.Quoted

/-! Title patterns in which `$*` stands for any run of characters and `$?` for one. Plain `*` and
`?` are ordinary characters there. -/
namespace TagQuery

namespace Glob

inductive Token where
  | char (c : Char)
  | one
  | many
  deriving DecidableEq, Repr

/-- Reads the rest of a pattern after the given tokens, last first. -/
def tokensFrom (read : List Token) : List Char → List Token
  | [] => read.reverse
  | '$' :: '*' :: rest => tokensFrom (.many :: read) rest
  | '$' :: '?' :: rest => tokensFrom (.one :: read) rest
  | c :: rest => tokensFrom (.char c :: read) rest

def tokens (pattern : List Char) : List Token :=
  tokensFrom [] pattern

/-- The characters with a meaning of their own in a regular expression. -/
def metaChars : List Char :=
  "\\.+*?()|[]\x7b\x7d^$#&-~".toList

def expressionOf : Token → List Char
  | .char c => if metaChars.contains c then ['\\', c] else [c]
  | .one => ['.']
  | .many => ['.', '*']

def expression (pattern : List Char) : List Char :=
  (tokens pattern).flatMap expressionOf

/-- The bytes that a token takes in a compiled pattern, as they were measured. -/
def weight : Token → Nat
  | .char _ => 24
  | _ => 320

def size (pattern : List Char) : Nat :=
  (tokens pattern).foldr (fun token bytes => weight token + bytes) 0

def sizeLimit : Nat := 10485760

def isSmall (pattern : List Char) : Bool :=
  size pattern ≤ sizeLimit

end Glob

structure Glob where
  source : List Char
  deriving DecidableEq, Repr

structure Glob.Oversize where
  source : List Char
  deriving DecidableEq, Repr

namespace Glob

/-- Refuses the patterns that a test finds too large. Only the choice of that test rests on measured
sizes. -/
def compile (pattern : List Char) (fits : List Char → Bool := isSmall) : Except Oversize Glob :=
  if fits pattern then .ok ⟨pattern⟩ else .error ⟨pattern⟩

def Oversize.message (o : Oversize) : String :=
  "Invalid wildcard pattern " ++ String.ofList (Text.quoted o.source)
    ++ ": Compiled regex exceeds size limit of " ++ toString sizeLimit ++ " bytes."

/-- Continues a row over a run: a run may end where the rest matches, or take one more character
that is not a newline. -/
def runRow (before : Bool) (row : List Bool) : List Char → List Bool → List Bool
  | c :: value, rest :: rests =>
    let here := rest || (c != '\n' && before)
    runRow here (here :: row) value rests
  | _, _ => row.reverse

/-- From the row of the rest of a pattern, the row of that rest with one more token in front.
A row tells for every suffix of the value, the empty one first, whether it matches; the value is
given folded and in reverse. -/
def rowBefore (value : List Char) (token : Token) (row : List Bool) : List Bool :=
  match token, row with
  | .many, rest :: rests => runRow rest [rest] value rests
  | .many, [] => []
  | .one, row => false :: List.zipWith (fun c rest => c != '\n' && rest) value row
  | .char a, row =>
    let a := Text.fold a
    false :: List.zipWith (fun c rest => c == a && rest) value row

def matchTokens (tokens : List Token) (value : List Char) : Bool :=
  let folded := (value.map Text.fold).reverse
  let last := true :: folded.map fun _ => false
  (tokens.foldr (rowBefore folded) last).getLast? == some true

def isMatch (g : Glob) (value : List Char) : Bool :=
  matchTokens (tokens g.source) value

end Glob

end TagQuery
