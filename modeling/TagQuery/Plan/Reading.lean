import TagQuery.Plan
import TagQuery.Sql.Reading

/-! The text of a plan as a reader meets it. -/
namespace TagQuery

open Sql (Mark Reading)

variable {α : Type}

def namesReading (names : List α) : Reading :=
  .chain (names.map fun _ => Reading.column.like)

namespace SubQuery

def spaceReading : Reading := Reading.column.isNull.both Reading.column.like

def reading : SubQuery α → Reading
  | .tagged _ none => spaceReading
  | .tagged _ (some names) => spaceReading.both (namesReading names)
  | .free names _ => (namesReading names).beside Reading.column.like

def exclusionReading (q : SubQuery α) : Reading :=
  (Reading.qualified.both q.reading).above

end SubQuery

def UploaderTest.reading : UploaderTest α → Reading
  | .like _ => Reading.qualified.like
  | .unlike _ => Reading.qualified.isNull.both Reading.qualified.like.above
  | .present | .absent => Reading.qualified.isNull

namespace Plan

/-- The text of the statement, which no parameter enters. -/
def text (p : Plan α) : List Char :=
  (p.map fun _ => ([] : List Char)).statement.text

def conditionReadings (p : Plan α) : List Reading :=
  p.excluded.map (·.exclusionReading) ++ p.uploaders.map (·.reading)

/-- The marks in the order of the text: the metadata, the joined sub-queries, the conditions. -/
def marks (p : Plan α) : List Mark :=
  .source :: p.joined.flatMap (fun q => q.reading.marks.reverse ++ [.source])
    ++ (Reading.chain p.conditionReadings).marks.reverse

/-- The depth when the names in the text are looked up. By then the conditions on the joined
sub-queries follow the others, and an excluded sub-query lies below them all. -/
def depth (p : Plan α) : Nat :=
  (Reading.chain (p.conditionReadings
      ++ p.joined.map fun _ => Reading.qualified.both Reading.qualified)).depth
    + (p.excluded.map (·.reading.depth)).foldr max 0

end Plan

end TagQuery
