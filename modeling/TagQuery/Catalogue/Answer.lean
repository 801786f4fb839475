import TagQuery.Catalogue
import TagQuery.Like
import TagQuery.Sql.Query

/-! What a query means on the rows of a catalogue. Rows are bags: a join has a row for every pair
that fits, and duplicates go only where the query says so. -/
namespace TagQuery

namespace Sql

inductive Truth where
  | no
  | unknown
  | yes
  deriving DecidableEq

namespace Truth

def ofBool : Bool → Truth
  | true => .yes
  | false => .no

def not : Truth → Truth
  | .no => .yes
  | .unknown => .unknown
  | .yes => .no

def and : Truth → Truth → Truth
  | .no, _ | _, .no => .no
  | .yes, .yes => .yes
  | _, _ => .unknown

def or : Truth → Truth → Truth
  | .yes, _ | _, .yes => .yes
  | .no, .no => .no
  | _, _ => .unknown

def all (truths : List Truth) : Truth := truths.foldr and .yes
def any (truths : List Truth) : Truth := truths.foldr or .no

end Truth

inductive Datum where
  | null
  | int (value : Int)
  | text (chars : List Char)
  deriving DecidableEq

namespace Datum

def ofText? : Option (List Char) → Datum
  | some chars => .text chars
  | none => .null

def int? : Datum → Option Int
  | .int value => some value
  | _ => none

/-- Nothing is known of the missing value, not even that it is itself. -/
def equals : Datum → Datum → Truth
  | .null, _ | _, .null => .unknown
  | a, b => .ofBool (a == b)

def like (pattern : List Char) : Datum → Truth
  | .null => .unknown
  | .int value => .ofBool (Like.holds pattern (toString value).toList)
  | .text chars => .ofBool (Like.holds pattern chars)

def among (d : Datum) (values : List Datum) : Truth :=
  .any (values.map d.equals)

/-- The order of values: the missing one, then numbers, then texts. -/
def le : Datum → Datum → Bool
  | .null, _ => true
  | .int a, .int b => a ≤ b
  | .int _, .text _ => true
  | .text a, .text b => !b.lex a fun c d => c.toNat < d.toNat
  | _, _ => false

end Datum

structure Source where
  name : List Char
  row : List (List Char × Datum)

/-- The value of a column in the first source that has it. -/
def Column.value (column : Column) (sources : List Source) : Datum :=
  let named := sources.filter fun source => column.source.all (· == source.name)
  (named.findSome? (·.row.lookup column.name)).getD .null

def Test.truth (d : Datum) : Test (List Datum) → Truth
  | .null => .ofBool (d == .null)
  | .like pattern => d.like pattern
  | .among values => d.among values

def Literal.truth (l : Literal (List Datum)) (sources : List Source) : Truth :=
  let truth := l.test.truth (l.column.value sources)
  if l.negated then truth.not else truth

/-- The test with the values of a sub-query in its place. -/
def Literal.map {σ τ : Type} (f : σ → τ) (l : Literal σ) : Literal τ where
  column := l.column
  negated := l.negated
  test := match l.test with
    | .null => .null
    | .like pattern => .like pattern
    | .among query => .among (f query)

def Condition.map {σ τ : Type} (f : σ → τ) (c : Condition σ) : Condition τ :=
  List.map (List.map (Literal.map f)) c

/-- A row stays only if its condition is known to hold. -/
def Condition.holds (c : Condition (List Datum)) (sources : List Source) : Bool :=
  Truth.all (List.map (fun literals => Truth.any (literals.map (·.truth sources))) c) == .yes

def insertBy {α : Type} (key : α → Datum) (item : α) : List α → List α
  | [] => [item]
  | other :: items =>
    if (key item).le (key other) then item :: other :: items else other :: insertBy key item items

/-- A row with a value of the sub-query beside it, if the two columns are equal then. -/
def Joined.pair? (j : Joined) (sources : List Source) (value : Datum) : Option (List Source) :=
  let sources := sources ++ [⟨j.name, [(j.query.first.name, value)]⟩]
  if (j.left.value sources).equals (j.right.value sources) == .yes then some sources else none

section Values

variable (table : List Char → List (List (List Char × Datum)))

def Selection.values (s : Selection) : List Datum :=
  let rows := (table s.table).map fun row => [Source.mk s.table row]
  let condition := Condition.map Empty.elim s.condition
  let found := (rows.filter condition.holds).map s.column.value
  if s.distinct then found.eraseDups else found

def Union.values (u : Union) : List Datum :=
  u.others.foldl (fun found other =>
    let both := found ++ other.2.values table
    if other.1 then both else both.eraseDups) (u.first.values table)

def Joined.extend (rows : List (List Source)) (j : Joined) : List (List Source) :=
  let values := j.query.values table
  rows.flatMap fun sources => values.filterMap (j.pair? sources)

def Query.values (q : Query) : List Datum :=
  let rows := q.joins.foldl (Joined.extend table) ((table q.table).map fun row => [⟨q.name, row⟩])
  let condition := Condition.map (·.values table) q.condition
  let found := rows.filter condition.holds
  let ordered := match q.order with
    | some column => found.foldr (insertBy column.value) []
    | none => found
  ordered.map q.column.value

end Values

end Sql

open Sql (Datum)

def workColumn : List Char := "manga_id".toList
def uploaderColumn : List Char := "uploader".toList
def spaceColumn : List Char := "namespace".toList
def nameColumn : List Char := "name".toList
def titleColumn : List Char := "title".toList
def kindColumn : List Char := "type".toList

def MetadataRow.columns (row : MetadataRow) : List (List Char × Datum) :=
  [(workColumn, .int row.work), (uploaderColumn, .ofText? row.uploader)]

def TagRow.columns (row : TagRow) : List (List Char × Datum) :=
  [(workColumn, .int row.work), (spaceColumn, .ofText? row.space), (nameColumn, .text row.name),
    (kindColumn, .int row.kind)]

def TitleRow.columns (row : TitleRow) : List (List Char × Datum) :=
  [(workColumn, .int row.work), (titleColumn, .text row.title), (kindColumn, .int row.kind)]

def Setting.columns (s : Setting) : List (List Char × Datum) :=
  [("key".toList, .text s.key), ("value".toList, .text s.value)]

namespace Catalogue

/-- The rows of a table by its name; one that is missing has none. -/
def table (c : Catalogue) (name : List Char) : List (List (List Char × Datum)) :=
  match Table.ofName? name with
  | some .metadata => (c.metadata.getD .empty).rows.map (·.columns)
  | some .tags => (c.tags.getD []).map (·.columns)
  | some .titles => (c.titles.getD []).map (·.columns)
  | some .settings => (c.settings.getD []).map (·.columns)
  | none => []

/-- The numbers that a statement text asks for, if it spells a query. -/
def answer? (c : Catalogue) (text : List Char) (params : List (List Char)) : Option (List Int) :=
  (Sql.query? text params).map fun q => (q.values c.table).filterMap (·.int?)

end Catalogue

end TagQuery
