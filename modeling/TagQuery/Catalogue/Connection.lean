import TagQuery.Catalogue.Error
import TagQuery.Event
import TagQuery.Options.Reader

/-! Operations on an open catalogue. -/
namespace TagQuery

structure Connection where
  catalogue : Catalogue := {}
  readOnly : Bool := false
  deriving DecidableEq

namespace Connection

/-- Changes the table of a target, or leaves everything as it is. -/
def write (c : Connection) (target : WriteTarget) (change : Catalogue → Catalogue) :
    Except StoreError Connection :=
  if !c.catalogue.has target.table then .error (.write target (.missing target.table))
  else if c.readOnly then .error (.write target .readOnly)
  else .ok { c with catalogue := change c.catalogue }

def insertMetadata (c : Connection) (row : MetadataRow) : Except StoreError Connection :=
  c.write (.metadata row.work) (·.putMetadata row)

def insertTag (c : Connection) (row : TagRow) : Except StoreError Connection :=
  c.write (.tag row.work) (·.addTag row)

def insertTitle (c : Connection) (row : TitleRow) : Except StoreError Connection :=
  c.write (.title row.work) (·.addTitle row)

def setSetting (c : Connection) (key value : List Char) : Except StoreError Connection :=
  c.write (.setting key) (·.putSetting ⟨key, value⟩)

def getSetting (c : Connection) (key : List Char) : Except StoreError (Option (List Char)) :=
  if c.catalogue.has .settings then .ok (c.catalogue.setting? key) else .error (.readSetting key)

def search {α : Type} (c : Connection) (plan : Plan α) (params : List (List Char)) :
    Except StoreError (List Int) :=
  (c.catalogue.search plan params).mapError .search

def optionsKey : List Char := "searchConfigV1".toList

def saveOptions (c : Connection) (options : Options) : Except StoreError Connection :=
  c.setSetting optionsKey options.render

/-- The stored options; what cannot be read counts as absent, with an event. -/
def loadOptions (c : Connection) : Except StoreError (Option Options × List Event) :=
  match c.getSetting optionsKey with
  | .error e => .error e
  | .ok none => .ok (none, [])
  | .ok (some text) =>
    match Options.parse text with
    | .ok options => .ok (some options, [])
    | .error fault => .ok (none, [.unreadableOptions (fault.message text)])

end Connection

end TagQuery
