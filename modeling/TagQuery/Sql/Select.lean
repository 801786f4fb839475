import TagQuery.Sql.Fragment

/-! Select statements put together from fragments. -/
namespace TagQuery.Sql

/-- A fragment joined to the selected table: its `column` equals the `target`. -/
structure Join where
  fragment : Fragment
  column : List Char
  target : List Char
  deriving DecidableEq

/-- A statement ready to run: its text, and the texts bound to its placeholders from left to
right. -/
structure Statement where
  text : List Char
  params : List (List Char)
  deriving DecidableEq, Repr

structure Select where
  head : List Char
  joins : List Join := []
  conditions : List Fragment := []
  order : Option (List Char) := none
  deriving DecidableEq

namespace Select

def addJoin (s : Select) (fragment : Fragment) (column target : List Char) : Select :=
  { s with joins := s.joins ++ [⟨fragment, column, target⟩] }

def addCondition (s : Select) (fragment : Fragment) : Select :=
  { s with conditions := s.conditions ++ [fragment] }

/-- The last order given is the one that counts. -/
def orderedBy (s : Select) (column : List Char) : Select :=
  { s with order := some column }

def joinName (index : Nat) : List Char :=
  'i' :: Nat.toDigits 10 index

/-- The words between the parts that the callers give. -/
def joinHead : List Char := "\nINNER JOIN ".toList
def onText : List Char := "\nON ".toList
def equalsText : List Char := " = ".toList
def whereHead : List Char := "\nWHERE\n".toList
def whereAnd : List Char := "\nAND\n".toList
def orderHead : List Char := "\nORDER BY ".toList

def joinText (join : Join) (index : Nat) : List Char :=
  joinHead ++ join.fragment.sql ++ ' ' :: joinName index ++ onText
    ++ joinName index ++ '.' :: join.column ++ equalsText ++ join.target

def whereText : List Fragment → List Char
  | [] => []
  | fs => whereHead ++ separated whereAnd (fs.map (·.sql))

def orderText : Option (List Char) → List Char
  | some column => orderHead ++ column
  | none => []

def text (s : Select) : List Char :=
  s.head ++ s.joins.zipIdx.flatMap (fun j => joinText j.1 j.2) ++ whereText s.conditions
    ++ orderText s.order

def params (s : Select) : List (List Char) :=
  s.joins.flatMap (·.fragment.params) ++ s.conditions.flatMap (·.params)

def build (s : Select) : Statement :=
  ⟨s.text, s.params⟩

end Select

end TagQuery.Sql
