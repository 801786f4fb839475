import TagQuery.Catalogue.Answer
import TagQuery.Plan.Bind
import TagQuery.Plan.Reading
import TagQuery.Text.Bytes

/-! Running plans on a catalogue. The answer is what the text of the plan means. The order in which
rows are tested, which is that of `Plan.run`, decides only whether a pattern that is too long is
met. -/
namespace TagQuery

inductive SearchFault where
  | tooManyPlaceholders (text : List Char)
  | tooManySources
  | tooDeep
  | unreadable
  | missing (table : Table)
  | tooManyTables
  | paramCount (given needed : Nat)
  | patternTooLong
  deriving DecidableEq, Repr

def placeholderLimit : Nat := 32766
def sourceLimit : Nat := 200
def depthLimit : Nat := 1000
def tableLimit : Nat := 64
def patternLimit : Nat := 50000

/-- The test of a value against a pattern, which may not be too long. -/
def tryLike (pattern value : List Char) : Except SearchFault Bool :=
  if patternLimit < Text.utf8Length pattern then .error .patternTooLong
  else .ok (Like.holds pattern value)

/-- Whether one of the patterns holds; those after the first that does are not tried. -/
def anyLike (value : List Char) : List (List Char) → Except SearchFault Bool
  | [] => .ok false
  | p :: ps =>
    match tryLike p value with
    | .ok false => anyLike value ps
    | answer => answer

def worksWhere {ρ : Type} (work : ρ → Int) (test : ρ → Except SearchFault Bool) :
    List ρ → Except SearchFault (List Int)
  | [] => .ok []
  | row :: rows =>
    match test row, worksWhere work test rows with
    | .ok true, .ok works => .ok (work row :: works)
    | .ok false, .ok works => .ok works
    | .error fault, _ => .error fault
    | _, .error fault => .error fault

/-- Whether all answers are yes; those after the first no are not looked at. -/
def allYes : List (Except SearchFault Bool) → Except SearchFault Bool
  | [] => .ok true
  | .ok true :: answers => allYes answers
  | .ok false :: _ => .ok false
  | .error fault :: _ => .error fault

namespace SubQuery

def testTag (space : List Char) (names : Option (List (List Char))) (row : TagRow) :
    Except SearchFault Bool :=
  match row.space with
  | none => .ok false
  | some value =>
    match tryLike space value, names with
    | .ok true, some names => anyLike row.name names
    | answer, _ => answer

def works (tags : List TagRow) (titles : List TitleRow) :
    SubQuery (List Char) → Except SearchFault (List Int)
  | .tagged space names => worksWhere (·.work) (testTag space names) tags
  | .free names title =>
    match worksWhere (·.work) (fun row => anyLike row.name names) tags,
      worksWhere (·.work) (fun row => tryLike title row.title) titles with
    | .ok byTag, .ok byTitle => .ok (byTag ++ byTitle)
    | .error fault, _ => .error fault
    | _, .error fault => .error fault

def isFree {α : Type} : SubQuery α → Bool
  | .tagged _ _ => false
  | .free _ _ => true

def tables {α : Type} : SubQuery α → List Table
  | .tagged _ _ => [.tags]
  | .free _ _ => [.titles, .tags]

end SubQuery

/-- The condition on the uploader of a row. A missing uploader is neither like a pattern nor
unlike it, but passes an exclusion. -/
def UploaderTest.test (row : MetadataRow) : UploaderTest (List Char) → Except SearchFault Bool
  | .like pattern => (tryLike pattern (row.uploader.getD [])).map (· && row.uploader.isSome)
  | .unlike pattern =>
    match row.uploader with
    | none => .ok true
    | some uploader => (tryLike pattern uploader).map (!·)
  | .present => .ok row.uploader.isSome
  | .absent => .ok row.uploader.isNone

namespace Plan

/-- The first limit that a reader of the text meets, after so many placeholders and sources. -/
def readingFault? {α : Type} (p : Plan α) (placeholders sources : Nat) :
    List Sql.Mark → Option SearchFault
  | [] => none
  | .placeholder :: marks =>
    if placeholderLimit ≤ placeholders then some (.tooManyPlaceholders p.text)
    else p.readingFault? (placeholders + 1) sources marks
  | .source :: marks =>
    if sourceLimit ≤ sources then some .tooManySources
    else p.readingFault? placeholders (sources + 1) marks
  | .level depth :: marks =>
    if depthLimit < depth then some .tooDeep
    else p.readingFault? placeholders sources marks

def tables {α : Type} (p : Plan α) : List Table :=
  .metadata :: (p.joined ++ p.excluded).flatMap (·.tables)

/-- The joined sub-queries that are run before the metadata is looked at: a single one on tags of a
namespace. With another order only `patternTooLong` could come or go. -/
def leading {α : Type} (p : Plan α) : List (SubQuery α) :=
  match p.joined with
  | [.tagged space names] => [.tagged space names]
  | _ => []

/-- The joined sub-queries that only matter to a row that passes everything else. Those that look
for titles come first. -/
def following {α : Type} (p : Plan α) : List (SubQuery α) :=
  match p.joined with
  | [.tagged _ _] => []
  | joined => joined.filter (·.isFree) ++ joined.filter (!·.isFree)

/-- Whether a row passes the conditions of a plan, given the works of its sub-queries. After the
leading sub-queries come the exclusions, the uploader and the sub-queries that follow. -/
def testRow (leading : List (List Int)) (excluded following : List (Except SearchFault (List Int)))
    (uploaders : List (UploaderTest (List Char))) (row : MetadataRow) : Except SearchFault Bool :=
  if leading.all (·.contains row.work) then
    allYes (excluded.map (fun works => works.map (!·.contains row.work))
      ++ uploaders.map (·.test row) ++ following.map fun works => works.map (·.contains row.work))
  else .ok false

def allWorks (tags : List TagRow) (titles : List TitleRow) :
    List (SubQuery (List Char)) → Except SearchFault (List (List Int))
  | [] => .ok []
  | q :: qs =>
    match q.works tags titles, allWorks tags titles qs with
    | .ok works, .ok others => .ok (works :: others)
    | .error fault, _ => .error fault
    | _, .error fault => .error fault

/-- The works that pass all tests, unless a test on the way there is against a pattern that is too
long. -/
def run (p : Plan (List Char)) (metadata : Metadata) (tags : List TagRow)
    (titles : List TitleRow) : Except SearchFault (List Int) :=
  match allWorks tags titles p.leading with
  | .error fault => .error fault
  | .ok leading =>
    worksWhere (·.work) (testRow leading (p.excluded.map (·.works tags titles))
      (p.following.map (·.works tags titles)) p.uploaders) metadata.rows

end Plan

namespace Catalogue

/-- Whether a plan can be run here: its text can be read, its tables exist, its conditions are not
nested too deeply once they are looked up, and not too many tables are joined. -/
def prepare {α : Type} (c : Catalogue) (p : Plan α) : Except SearchFault Unit :=
  match p.readingFault? 0 0 p.marks with
  | some fault => .error fault
  | none =>
    match p.tables.find? (!c.has ·) with
    | some table => .error (.missing table)
    | none =>
      if depthLimit < p.depth then .error .tooDeep
      else if tableLimit < p.joined.length + 1 then .error .tooManyTables
      else .ok ()

/-- The works that the text of a plan asks for when the parameters are bound to its placeholders,
unless a pattern that is too long is met on the way. Parameters are counted at most up to one more
than needed. -/
def search {α : Type} (c : Catalogue) (p : Plan α) (params : List (List Char)) :
    Except SearchFault (List Int) :=
  match c.prepare p with
  | .error fault => .error fault
  | .ok () =>
    match p.bind? params with
    | none => .error (.paramCount (min params.length (p.params.length + 1)) p.params.length)
    | some bound =>
      match bound.run (c.metadata.getD .empty) (c.tags.getD []) (c.titles.getD []) with
      | .error fault => .error fault
      | .ok _ =>
        match c.answer? p.text params with
        | some works => .ok works
        | none => .error .unreadable

end Catalogue

end TagQuery
