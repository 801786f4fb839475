import TagQuery.Sql.Select

/-! Search plans: the one shape of statement that a search needs, with a place of type `α` for
every pattern. Its text depends on the shape alone, and its parameters are the patterns in the
order of the text. -/
namespace TagQuery

/-- The works that have a tag, and for `free` also those that have a title. -/
inductive SubQuery (α : Type) where
  /-- One tag row has the namespace and, if names are given, one of them. -/
  | tagged (space : α) (names : Option (List α))
  /-- Some tag row has one of the names, or some title row the title. -/
  | free (names : List α) (title : α)
  deriving DecidableEq, Repr

/-- A condition on the uploader of a work, which may be missing. -/
inductive UploaderTest (α : Type) where
  | like (pattern : α)
  | unlike (pattern : α)
  | present
  | absent
  deriving DecidableEq, Repr

structure Plan (α : Type) where
  joined : List (SubQuery α) := []
  excluded : List (SubQuery α) := []
  uploaders : List (UploaderTest α) := []
  deriving DecidableEq, Repr

def likeText (column : String) : List Char :=
  column.toList ++ " LIKE ? ESCAPE '\\'".toList

def nameTest : List Char := likeText "name"
def orText : List Char := " OR ".toList
def andText : List Char := "\n    AND ".toList

/-- The tags that have a namespace, up to the test of it. -/
def taggedHead : List Char :=
  "(SELECT DISTINCT manga_id AS mid FROM search_tags\n    WHERE namespace IS NOT NULL".toList

def spaceTest : List Char := likeText "namespace"

def freeHead : List Char :=
  "(SELECT manga_id AS mid FROM search_tags\n    WHERE ".toList

def titleHead : List Char :=
  "\nUNION\nSELECT manga_id AS mid FROM search_titles\n    WHERE ".toList

def titleTest : List Char := likeText "title"

theorem placeholders_likeText {column : String} (h : Sql.placeholders column.toList = 0) :
    Sql.placeholders (likeText column) = 1 := by
  have comparison : Sql.placeholders " LIKE ? ESCAPE '\\'".toList = 1 :=
    Sql.placeholders_literal rfl
  rw [likeText, Sql.placeholders_append, h, comparison]

@[simp] theorem placeholders_nameTest : Sql.placeholders nameTest = 1 :=
  placeholders_likeText (Sql.placeholders_literal rfl)
@[simp] theorem placeholders_orText : Sql.placeholders orText = 0 :=
  Sql.placeholders_literal rfl
@[simp] theorem placeholders_andText : Sql.placeholders andText = 0 :=
  Sql.placeholders_literal rfl
@[simp] theorem placeholders_taggedHead : Sql.placeholders taggedHead = 0 :=
  Sql.placeholders_literal rfl
@[simp] theorem placeholders_spaceTest : Sql.placeholders spaceTest = 1 :=
  placeholders_likeText (Sql.placeholders_literal rfl)
@[simp] theorem placeholders_freeHead : Sql.placeholders freeHead = 0 :=
  Sql.placeholders_literal rfl
@[simp] theorem placeholders_titleHead : Sql.placeholders titleHead = 0 :=
  Sql.placeholders_literal rfl
@[simp] theorem placeholders_titleTest : Sql.placeholders titleTest = 1 :=
  placeholders_likeText (Sql.placeholders_literal rfl)
@[simp] theorem placeholders_open : Sql.placeholders ['('] = 0 := rfl
@[simp] theorem placeholders_close : Sql.placeholders [')'] = 0 := rfl

def namesText {α : Type} (names : List α) : List Char :=
  ['('] ++ Sql.separated orText (names.map fun _ => nameTest) ++ [')']

@[simp] theorem placeholders_namesText {α : Type} (names : List α) :
    Sql.placeholders (namesText names) = names.length := by
  rw [namesText, Sql.placeholders_append, Sql.placeholders_append,
    Sql.placeholders_separated placeholders_orText]
  induction names with
  | nil => rfl
  | cons name names ih =>
    rw [List.map_cons, List.flatten_cons, Sql.placeholders_append, List.length_cons, ← ih,
      placeholders_nameTest]
    omega

namespace SubQuery

variable {α β : Type}

def map (f : α → β) : SubQuery α → SubQuery β
  | .tagged space names => .tagged (f space) (names.map (·.map f))
  | .free names title => .free (names.map f) (f title)

/-- The patterns in the order of their placeholders. -/
def params : SubQuery α → List α
  | .tagged space none => [space]
  | .tagged space (some names) => space :: names
  | .free names title => names ++ [title]

def sql : SubQuery α → List Char
  | .tagged _ none => taggedHead ++ andText ++ spaceTest ++ [')']
  | .tagged _ (some names) =>
    taggedHead ++ andText ++ spaceTest ++ andText ++ namesText names ++ [')']
  | .free names _ => freeHead ++ namesText names ++ titleHead ++ titleTest ++ [')']

theorem placeholders_sql : (q : SubQuery α) → Sql.placeholders q.sql = q.params.length
  | .tagged _ none => by simp [sql, params, Sql.placeholders_append]
  | .tagged _ (some names) => by simp [sql, params, Sql.placeholders_append]; omega
  | .free names _ => by simp [sql, params, Sql.placeholders_append]

def fragment (q : SubQuery (List Char)) : Sql.Fragment :=
  ⟨q.sql, q.params, q.placeholders_sql⟩

def exclusionHead : List Char := "(meta.manga_id NOT IN ".toList

@[simp] theorem placeholders_exclusionHead : Sql.placeholders exclusionHead = 0 :=
  Sql.placeholders_literal rfl

def exclusion (q : SubQuery (List Char)) : Sql.Fragment :=
  ⟨exclusionHead ++ q.sql ++ [')'], q.params, by
    simp [Sql.placeholders_append, q.placeholders_sql]⟩

end SubQuery

namespace UploaderTest

variable {α β : Type}

def map (f : α → β) : UploaderTest α → UploaderTest β
  | .like pattern => .like (f pattern)
  | .unlike pattern => .unlike (f pattern)
  | .present => .present
  | .absent => .absent

def params : UploaderTest α → List α
  | .like pattern => [pattern]
  | .unlike pattern => [pattern]
  | .present => []
  | .absent => []

def likeTest : List Char := likeText "meta.uploader"

def unlikeTest : List Char :=
  "(meta.uploader IS NULL OR meta.uploader NOT LIKE ? ESCAPE '\\')".toList

def presentTest : List Char := "meta.uploader IS NOT NULL".toList
def absentTest : List Char := "meta.uploader IS NULL".toList

theorem placeholders_likeTest : Sql.placeholders likeTest = 1 :=
  placeholders_likeText (Sql.placeholders_literal rfl)

theorem placeholders_unlikeTest : Sql.placeholders unlikeTest = 1 := Sql.placeholders_literal rfl
theorem placeholders_presentTest : Sql.placeholders presentTest = 0 := Sql.placeholders_literal rfl
theorem placeholders_absentTest : Sql.placeholders absentTest = 0 := Sql.placeholders_literal rfl

def sql : UploaderTest α → List Char
  | .like _ => likeTest
  | .unlike _ => unlikeTest
  | .present => presentTest
  | .absent => absentTest

theorem placeholders_sql : (t : UploaderTest α) → Sql.placeholders t.sql = t.params.length
  | .like _ => placeholders_likeTest
  | .unlike _ => placeholders_unlikeTest
  | .present => placeholders_presentTest
  | .absent => placeholders_absentTest

def fragment (t : UploaderTest (List Char)) : Sql.Fragment :=
  ⟨t.sql, t.params, t.placeholders_sql⟩

end UploaderTest

namespace Plan

variable {α β : Type}

def map (f : α → β) (p : Plan α) : Plan β :=
  ⟨p.joined.map (·.map f), p.excluded.map (·.map f), p.uploaders.map (·.map f)⟩

def params (p : Plan α) : List α :=
  p.joined.flatMap (·.params) ++ p.excluded.flatMap (·.params) ++ p.uploaders.flatMap (·.params)

/-- The select over the metadata, where `metadataWork` names the work of a row. -/
def metadataHead : List Char := "SELECT meta.manga_id\nFROM search_metadata meta".toList
def metadataWork : List Char := "meta.manga_id".toList

def foundColumn : List Char := "mid".toList

/-- The plan as a select over the metadata, in ascending order of the works. -/
def select (p : Plan (List Char)) : Sql.Select where
  head := metadataHead
  joins := p.joined.map fun q => ⟨q.fragment, foundColumn, metadataWork⟩
  conditions := p.excluded.map (·.exclusion) ++ p.uploaders.map (·.fragment)
  order := some metadataWork

def statement (p : Plan (List Char)) : Sql.Statement :=
  p.select.build

end Plan

end TagQuery
