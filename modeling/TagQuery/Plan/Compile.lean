import TagQuery.Clause
import TagQuery.Namespace
import TagQuery.Phrase.Words
import TagQuery.Plan

/-! The plan of a list of clauses. Clauses that must hold are joined, excluded ones and those on
the uploader become conditions. -/
namespace TagQuery

namespace Phrase

/-- The patterns of which a tag name has to match one, under the modifier `exact`. -/
def namePatterns (exact : Bool) (p : Phrase) : List (List Char) :=
  if exact then [p.exactPattern] else p.lenientPatterns

/-- The pattern that a title has to match, under the modifier `exact`: titles are never looked for
word by word. -/
def titlePattern (exact : Bool) (p : Phrase) : List Char :=
  if exact then p.exactPattern else p.containedPattern

end Phrase

namespace SubQuery

def ofTag (exact : Bool) (space : List Char) (phrase : Option Phrase) : SubQuery (List Char) :=
  .tagged (Like.escape space) (phrase.map (·.namePatterns exact))

def ofText (exact : Bool) (phrase : Phrase) : SubQuery (List Char) :=
  .free (phrase.namePatterns exact) (phrase.titlePattern exact)

def of? (space : Option (List Char)) (phrase : Option Phrase) (exact : Bool) :
    Option (SubQuery (List Char)) :=
  match space, phrase with
  | some space, phrase => some (ofTag exact space phrase)
  | none, some phrase => some (ofText exact phrase)
  | none, none => none

end SubQuery

namespace Clause

def isUploader (c : Clause) : Bool :=
  match c.subject with
  | .tag space _ => space == Namespace.uploader
  | .text _ => false

def subQuery (c : Clause) : SubQuery (List Char) :=
  match c.subject with
  | .tag space phrase => .ofTag c.exact space phrase
  | .text phrase => .ofText c.exact phrase

/-- The condition on the uploader. It is always matched as a whole. -/
def uploaderTest (c : Clause) (phrase : Option Phrase) : UploaderTest (List Char) :=
  match phrase, c.excluded with
  | some phrase, false => .like phrase.exactPattern
  | some phrase, true => .unlike phrase.exactPattern
  | none, false => .present
  | none, true => .absent

def joined? (c : Clause) : Option (SubQuery (List Char)) :=
  if c.isUploader || c.excluded then none else some c.subQuery

def excluded? (c : Clause) : Option (SubQuery (List Char)) :=
  if c.isUploader || !c.excluded then none else some c.subQuery

def uploader? (c : Clause) : Option (UploaderTest (List Char)) :=
  match c.subject with
  | .tag space phrase => if space == Namespace.uploader then some (c.uploaderTest phrase) else none
  | .text _ => none

end Clause

def Plan.ofClauses (clauses : List Clause) : Plan (List Char) where
  joined := clauses.filterMap (·.joined?)
  excluded := clauses.filterMap (·.excluded?)
  uploaders := clauses.filterMap (·.uploader?)

end TagQuery
