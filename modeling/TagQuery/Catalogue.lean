/-! The catalogue: works with their uploaders, tags and titles, and named settings. A table may
be missing. -/
namespace TagQuery

structure MetadataRow where
  work : Int
  uploader : Option (List Char)
  deriving DecidableEq, Repr

structure TagRow where
  work : Int
  space : Option (List Char)
  name : List Char
  kind : Int
  deriving DecidableEq, Repr

structure TitleRow where
  work : Int
  title : List Char
  kind : Int
  deriving DecidableEq, Repr

structure Setting where
  key : List Char
  value : List Char
  deriving DecidableEq, Repr

inductive Table where
  | metadata
  | tags
  | titles
  | settings
  deriving DecidableEq, Repr

def Table.name : Table → String
  | .metadata => "search_metadata"
  | .tags => "search_tags"
  | .titles => "search_titles"
  | .settings => "settings"

def Table.all : List Table := [.metadata, .tags, .titles, .settings]

def Table.ofName? (name : List Char) : Option Table :=
  all.find? (·.name.toList == name)

/-- Puts a row in its place by work, instead of a row of the same work. -/
def MetadataRow.insert (row : MetadataRow) : List MetadataRow → List MetadataRow
  | [] => [row]
  | r :: rows =>
    if row.work < r.work then row :: r :: rows
    else if row.work = r.work then row :: rows
    else r :: insert row rows

theorem MetadataRow.mem_insert {row r : MetadataRow} {rows : List MetadataRow}
    (h : r ∈ row.insert rows) : r = row ∨ r ∈ rows := by
  induction rows with
  | nil => exact .inl (List.mem_singleton.mp h)
  | cons s rows ih =>
    simp only [insert] at h
    split at h
    · exact List.mem_cons.mp h
    · split at h
      · exact (List.mem_cons.mp h).imp id (List.mem_cons_of_mem s)
      · rcases List.mem_cons.mp h with rfl | h
        · exact .inr List.mem_cons_self
        · exact (ih h).imp id (List.mem_cons_of_mem s)

theorem MetadataRow.pairwise_insert {row : MetadataRow} {rows : List MetadataRow}
    (h : rows.Pairwise (·.work < ·.work)) : (row.insert rows).Pairwise (·.work < ·.work) := by
  induction rows with
  | nil => exact List.pairwise_singleton _ _
  | cons s rows ih =>
    have ⟨first, rest⟩ := List.pairwise_cons.mp h
    simp only [insert]
    split
    · refine List.pairwise_cons.mpr ⟨fun r hr => ?_, h⟩
      rcases List.mem_cons.mp hr with rfl | hr
      · assumption
      · have := first r hr
        omega
    · split
      · refine List.pairwise_cons.mpr ⟨fun r hr => ?_, rest⟩
        have := first r hr
        omega
      · refine List.pairwise_cons.mpr ⟨fun r hr => ?_, ih rest⟩
        rcases mem_insert hr with rfl | hr
        · omega
        · exact first r hr

/-- The metadata, one row a work, in ascending order of the works. -/
structure Metadata where
  rows : List MetadataRow := []
  ascending : rows.Pairwise (·.work < ·.work) := by exact List.Pairwise.nil
  deriving DecidableEq

def Metadata.empty : Metadata := {}

def Metadata.insert (m : Metadata) (row : MetadataRow) : Metadata :=
  ⟨row.insert m.rows, MetadataRow.pairwise_insert m.ascending⟩

structure Catalogue where
  metadata : Option Metadata := some .empty
  tags : Option (List TagRow) := some []
  titles : Option (List TitleRow) := some []
  settings : Option (List Setting) := some []
  deriving DecidableEq

namespace Catalogue

def has (c : Catalogue) : Table → Bool
  | .metadata => c.metadata.isSome
  | .tags => c.tags.isSome
  | .titles => c.titles.isSome
  | .settings => c.settings.isSome

def drop (c : Catalogue) : Table → Catalogue
  | .metadata => { c with metadata := none }
  | .tags => { c with tags := none }
  | .titles => { c with titles := none }
  | .settings => { c with settings := none }

def complete (c : Catalogue) : Catalogue where
  metadata := some (c.metadata.getD .empty)
  tags := some (c.tags.getD [])
  titles := some (c.titles.getD [])
  settings := some (c.settings.getD [])

def putMetadata (c : Catalogue) (row : MetadataRow) : Catalogue :=
  { c with metadata := c.metadata.map (·.insert row) }

def addTag (c : Catalogue) (row : TagRow) : Catalogue :=
  { c with tags := c.tags.map (row :: ·) }

def addTitle (c : Catalogue) (row : TitleRow) : Catalogue :=
  { c with titles := c.titles.map (row :: ·) }

def putSetting (c : Catalogue) (s : Setting) : Catalogue :=
  { c with settings := c.settings.map fun rows => s :: rows.filter (·.key != s.key) }

def setting? (c : Catalogue) (key : List Char) : Option (List Char) :=
  ((c.settings.getD []).find? (·.key == key)).map (·.value)

end Catalogue

end TagQuery
