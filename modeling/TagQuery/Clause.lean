import TagQuery.Phrase

/-! Clauses of a search. -/
namespace TagQuery

/-- What a clause asks for: a phrase in a tag name or a title, or a tag of a namespace. -/
inductive Subject where
  | text (phrase : Phrase)
  | tag (space : List Char) (phrase : Option Phrase)
  deriving DecidableEq

structure Clause where
  subject : Subject
  excluded : Bool := false
  exact : Bool := false
  deriving DecidableEq

namespace Clause

def withModifiers (c : Clause) (excluded exact : Bool) : Clause :=
  { c with excluded, exact }

def setExact (c : Clause) (exact : Bool) : Clause :=
  { c with exact }

end Clause

end TagQuery
