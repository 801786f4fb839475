/-! The words and marks of statement text. -/
namespace TagQuery.Sql

inductive Keyword where
  | SELECT | DISTINCT | AS | FROM | INNER | JOIN | ON | WHERE | AND | OR | IS | NOT | NULL | LIKE
  | ESCAPE | IN | UNION | ALL | ORDER | BY
  deriving DecidableEq

def Keyword.spellings : List (List Char × Keyword) :=
  [(['S', 'E', 'L', 'E', 'C', 'T'], .SELECT), (['D', 'I', 'S', 'T', 'I', 'N', 'C', 'T'], .DISTINCT),
    (['A', 'S'], .AS), (['F', 'R', 'O', 'M'], .FROM), (['I', 'N', 'N', 'E', 'R'], .INNER),
    (['J', 'O', 'I', 'N'], .JOIN), (['O', 'N'], .ON), (['W', 'H', 'E', 'R', 'E'], .WHERE),
    (['A', 'N', 'D'], .AND), (['O', 'R'], .OR), (['I', 'S'], .IS), (['N', 'O', 'T'], .NOT),
    (['N', 'U', 'L', 'L'], .NULL), (['L', 'I', 'K', 'E'], .LIKE),
    (['E', 'S', 'C', 'A', 'P', 'E'], .ESCAPE), (['I', 'N'], .IN),
    (['U', 'N', 'I', 'O', 'N'], .UNION), (['A', 'L', 'L'], .ALL),
    (['O', 'R', 'D', 'E', 'R'], .ORDER), (['B', 'Y'], .BY)]

inductive Token where
  | key (keyword : Keyword)
  | name (chars : List Char)
  | quoted (chars : List Char)
  | placeholder
  | mark (c : Char)
  deriving DecidableEq

/-- Keywords are written in capitals, and every other word is a name. -/
def Token.ofWord (chars : List Char) : Token :=
  match Keyword.spellings.find? (·.1 == chars) with
  | some (_, keyword) => .key keyword
  | none => .name chars

def isWordChar (c : Char) : Bool :=
  c.isAlphanum || c == '_'

/-- What is being read, with its characters last first. -/
inductive Pending where
  | nothing
  | word (read : List Char)
  | quotes (read : List Char)
  deriving DecidableEq

/-- The tokens read so far, last first. -/
structure Lexer where
  tokens : List Token := []
  pending : Pending := .nothing
  deriving DecidableEq

namespace Lexer

def closeWord (l : Lexer) : Lexer :=
  match l.pending with
  | .word read => ⟨.ofWord read.reverse :: l.tokens, .nothing⟩
  | _ => l

/-- A character that does not go on with anything. -/
def enter (tokens : List Token) (c : Char) : Lexer :=
  if isWordChar c then ⟨tokens, .word [c]⟩
  else if c == ' ' || c == '\n' then ⟨tokens, .nothing⟩
  else if c == '\'' then ⟨tokens, .quotes []⟩
  else if c == '?' then ⟨.placeholder :: tokens, .nothing⟩
  else ⟨.mark c :: tokens, .nothing⟩

def step (l : Lexer) (c : Char) : Lexer :=
  match l.pending with
  | .nothing => enter l.tokens c
  | .word read =>
    if isWordChar c then ⟨l.tokens, .word (c :: read)⟩
    else enter (.ofWord read.reverse :: l.tokens) c
  | .quotes read =>
    if c == '\'' then ⟨.quoted read.reverse :: l.tokens, .nothing⟩
    else ⟨l.tokens, .quotes (c :: read)⟩

end Lexer

/-- The tokens of a statement text. Quotes that are not closed are left out. -/
def tokens (text : List Char) : List Token :=
  (text.foldl Lexer.step {}).closeWord.tokens.reverse

end TagQuery.Sql
