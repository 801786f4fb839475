import TagQuery.Clause
import TagQuery.Namespace
import TagQuery.Text.Blank
import TagQuery.Text.Lowercase

/-! Reading a search line into clauses. Every line can be read: a quote left open, a modifier
with nothing after it and a colon with nothing around it all have a meaning. -/
namespace TagQuery.Query

/-- The clause being read. The open literal run and the pieces before it are in reverse. -/
structure Draft where
  quoted : Bool := false
  run : List Char := []
  pieces : List Piece := []
  space : Option (List Char) := none
  excluded : Bool := false
  exact : Bool := false
  deriving DecidableEq

namespace Draft

def closed (d : Draft) : List Piece :=
  if d.run.isEmpty then d.pieces else .lit d.run.reverse :: d.pieces

def phrase? (d : Draft) : Option Phrase :=
  Phrase.ofPieces? d.closed.reverse

/-- The clause that a separator or the end of the line completes. -/
def clause? (d : Draft) : Option Clause :=
  match d.space, d.phrase? with
  | some space, phrase => some ⟨.tag space phrase, d.excluded, d.exact⟩
  | none, some phrase => some ⟨.text phrase, d.excluded, d.exact⟩
  | none, none => none

def hole (d : Draft) (p : Piece) : Draft :=
  { d with run := [], pieces := p :: d.closed }

/-- A dash excludes the clause unless it stands inside a word. -/
def opensWord (d : Draft) : Bool :=
  match d.run with
  | [] => true
  | c :: _ => c == ' '

/-- What was read becomes the namespace. A later colon replaces it; one with nothing before it
is ignored. -/
def scope (d : Draft) : Draft :=
  match d.phrase? with
  | some name => { d with run := [], pieces := [], space := some (Namespace.resolve name.typed) }
  | none => d

def feed (holes : Bool) (d : Draft) (c : Char) : Draft :=
  if c == '"' then { d with quoted := !d.quoted }
  else if holes && (c == '?' || c == '_') then d.hole .one
  else if holes && (c == '*' || c == '%') then d.hole .many
  else if c == '-' && !d.quoted && d.opensWord then { d with excluded := true }
  else if c == '$' then { d with exact := true }
  else if c == ':' && !d.quoted then d.scope
  else { d with run := c :: d.run }

/-- A separator ends the clause unless it is quoted. -/
def endsAt (d : Draft) (c : Char) : Bool :=
  !d.quoted && Text.isSeparator c

end Draft

/-- Reads the rest of a lowercased line, given the clauses before it in reverse. -/
def readFrom (holes : Bool) (d : Draft) (done : List Clause) : List Char → List Clause
  | [] => (d.clause?.toList ++ done).reverse
  | c :: rest =>
    if d.endsAt c then readFrom holes {} (d.clause?.toList ++ done) rest
    else readFrom holes (d.feed holes c) done rest

/-- The clauses of a search line; `holes` says whether wildcards are read as such. -/
def read (holes : Bool) (line : List Char) : List Clause :=
  readFrom holes {} [] (Text.lowercase line)

end TagQuery.Query
