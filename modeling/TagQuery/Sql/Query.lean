import TagQuery.Sql.Token

/-! Queries: rows of a table, joined with the rows of sub-queries, under a condition and in an
order. Their reading from statement text cuts the text at its keywords. -/
namespace TagQuery.Sql

/-- A column, and the source of rows that has it if the text says so. -/
structure Column where
  source : Option (List Char)
  name : List Char

/-- What a value is compared with, where `σ` stands for sub-queries. -/
inductive Test (σ : Type) where
  | null
  | like (pattern : List Char)
  | among (query : σ)

structure Literal (σ : Type) where
  column : Column
  negated : Bool
  test : Test σ

/-- Alternatives of which one has to hold, for each part of a condition. -/
abbrev Condition (σ : Type) := List (List (Literal σ))

/-- One column of the rows of a table under a condition, in which there is no sub-query. -/
structure Selection where
  distinct : Bool
  column : Column
  name : List Char
  table : List Char
  condition : Condition Empty

/-- Selections one after the other. Of those after the first it is said whether duplicates stay. -/
structure Union where
  first : Selection
  others : List (Bool × Selection)

/-- A sub-query under a name, and the two columns that are equal in the rows joined. -/
structure Joined where
  query : Union
  name : List Char
  left : Column
  right : Column

structure Query where
  column : Column
  table : List Char
  name : List Char
  joins : List Joined
  condition : Condition Union
  order : Option Column

/-- A token, where parentheses and what is between them are one. -/
inductive Item where
  | key (keyword : Keyword)
  | name (chars : List Char)
  | quoted (chars : List Char)
  | bound (text : List Char)
  | mark (c : Char)
  | group (items : List Item)

/-- The parameters that are left, the items of the group being read, and those of the groups around
it; items come last first. -/
structure Nest where
  params : List (List Char)
  items : List Item := []
  outer : List (List Item) := []

def Item.ofToken : Token → Item
  | .key keyword => .key keyword
  | .name chars => .name chars
  | .quoted chars => .quoted chars
  | .placeholder => .mark '?'
  | .mark c => .mark c

/-- A parenthesis or a placeholder that does not fit stays a mark, which no query has. -/
def Nest.step (n : Nest) (token : Token) : Nest :=
  match token, n.params, n.outer with
  | .placeholder, text :: params, _ => { n with params, items := .bound text :: n.items }
  | .mark '(', _, _ => { n with items := [], outer := n.items :: n.outer }
  | .mark ')', _, items :: outer =>
    { n with items := .group n.items.reverse :: items, outer }
  | _, _, _ => { n with items := .ofToken token :: n.items }

/-- The items of tokens whose placeholders are bound to the parameters from left to right. -/
def items? (tokens : List Token) (params : List (List Char)) : Option (List Item) :=
  match tokens.foldl Nest.step { params } with
  | ⟨_, items, []⟩ => some items.reverse
  | _ => none

def Item.isKey (keyword : Keyword) : Item → Bool
  | .key k => k == keyword
  | _ => false

/-- The parts between the occurrences of a keyword, after a part that was begun. -/
def cutFrom (keyword : Keyword) (part : List Item) : List Item → List (List Item)
  | [] => [part.reverse]
  | item :: items =>
    if item.isKey keyword then part.reverse :: cutFrom keyword [] items
    else cutFrom keyword (item :: part) items

def cut (keyword : Keyword) (items : List Item) : List (List Item) :=
  cutFrom keyword [] items

section Reader

variable {σ : Type} (query? : List Item → Option σ)

def literalOn? (column : Column) : List Item → Option (Literal σ)
  | [.key .IS, .key .NULL] => some ⟨column, false, .null⟩
  | [.key .IS, .key .NOT, .key .NULL] => some ⟨column, true, .null⟩
  | [.key .LIKE, .bound text, .key .ESCAPE, .quoted ['\\']] => some ⟨column, false, .like text⟩
  | [.key .NOT, .key .LIKE, .bound text, .key .ESCAPE, .quoted ['\\']] =>
    some ⟨column, true, .like text⟩
  | [.key .IN, .group items] => (query? items).map fun query => ⟨column, false, .among query⟩
  | [.key .NOT, .key .IN, .group items] =>
    (query? items).map fun query => ⟨column, true, .among query⟩
  | _ => none

def literal? : List Item → Option (Literal σ)
  | .name source :: .mark '.' :: .name name :: items =>
    literalOn? query? ⟨some source, name⟩ items
  | .name name :: items => literalOn? query? ⟨none, name⟩ items
  | _ => none

def alternatives? : List Item → Option (List (Literal σ))
  | [.group items] => (cut .OR items).mapM (literal? query?)
  | items => (literal? query? items).map ([·])

def condition? (items : List Item) : Option (Condition σ) :=
  (cut .AND items).mapM (alternatives? query?)

end Reader

def Selection.read? (items : List Item) : Option Selection :=
  match cut .WHERE items with
  | [[.key .SELECT, .key .DISTINCT, .name column, .key .AS, .name name, .key .FROM, .name table],
      condition] =>
    (condition? (fun _ => none) condition).map (⟨true, ⟨none, column⟩, name, table, ·⟩)
  | [[.key .SELECT, .name column, .key .AS, .name name, .key .FROM, .name table], condition] =>
    (condition? (fun _ => none) condition).map (⟨false, ⟨none, column⟩, name, table, ·⟩)
  | _ => none

def Union.other? : List Item → Option (Bool × Selection)
  | .key .ALL :: items => (Selection.read? items).map (true, ·)
  | items => (Selection.read? items).map (false, ·)

def Union.read? (items : List Item) : Option Union :=
  match cut .UNION items with
  | [] => none
  | first :: others =>
    match Selection.read? first, others.mapM other? with
    | some first, some others => some ⟨first, others⟩
    | _, _ => none

def Joined.read? : List Item → Option Joined
  | [.key .JOIN, .group items, .name name, .key .ON, .name source, .mark '.', .name column,
      .mark '=', .name source', .mark '.', .name column'] =>
    (Union.read? items).map (⟨·, name, ⟨some source, column⟩, ⟨some source', column'⟩⟩)
  | _ => none

namespace Query

/-- The sources of a query, and the column that it gives. -/
def readSources? (items : List Item) (condition : Condition Union) (order : Option Column) :
    Option Query :=
  match cut .INNER items with
  | [.key .SELECT, .name source, .mark '.', .name column, .key .FROM, .name table, .name name]
      :: joins =>
    (joins.mapM Joined.read?).map (⟨⟨some source, column⟩, table, name, ·, condition, order⟩)
  | _ => none

def readBody? (items : List Item) (order : Option Column) : Option Query :=
  match cut .WHERE items with
  | [sources] => readSources? sources [] order
  | [sources, condition] =>
    match condition? Union.read? condition with
    | some condition => readSources? sources condition order
    | none => none
  | _ => none

def ofItems? (items : List Item) : Option Query :=
  match cut .ORDER items with
  | [body] => readBody? body none
  | [body, [.key .BY, .name source, .mark '.', .name column]] =>
    readBody? body (some ⟨some source, column⟩)
  | _ => none

end Query

/-- The query that a text spells when the parameters are bound to its placeholders. -/
def query? (text : List Char) (params : List (List Char)) : Option Query :=
  match items? (tokens text) params with
  | some items => Query.ofItems? items
  | none => none

end TagQuery.Sql
