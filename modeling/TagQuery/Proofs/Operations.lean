import TagQuery.Catalogue.Connection

/-! The operations on a connection as data, so that runs of them can be spoken about: what each
answers, and what is left behind. Main statement: an operation that fails leaves every table as it
is, and one that succeeds makes its own change. -/
namespace TagQuery.Connection

inductive Insert where
  | metadata (row : MetadataRow)
  | tag (row : TagRow)
  | title (row : TitleRow)
  deriving DecidableEq

def insert (c : Connection) : Insert → Except StoreError Connection
  | .metadata row => c.insertMetadata row
  | .tag row => c.insertTag row
  | .title row => c.insertTitle row

/-- What may be asked of an open catalogue. Dropping a table and refusing writes are done from
outside. -/
inductive Operation where
  | insert (row : Insert)
  | setSetting (key value : List Char)
  | saveOptions (options : Options)
  | getSetting (key : List Char)
  | loadOptions
  | search (plan : Plan (List Char)) (params : List (List Char))
  | setReadOnly (on : Bool)
  | drop (table : Table)
  deriving DecidableEq

inductive Reply where
  | done
  | setting (value : Option (List Char))
  | options (options : Option Options)
  | works (ids : List Int)
  deriving DecidableEq

/-- The reply to an operation that changes the catalogue, and the connection after it. -/
def changed (c : Connection) :
    Except StoreError Connection → Except StoreError Reply × Connection
  | .ok next => (.ok .done, next)
  | .error e => (.error e, c)

def serve (c : Connection) : Operation → Except StoreError Reply × Connection
  | .insert row => c.changed (c.insert row)
  | .setSetting key value => c.changed (c.setSetting key value)
  | .saveOptions options => c.changed (c.saveOptions options)
  | .getSetting key => ((c.getSetting key).map .setting, c)
  | .loadOptions => (c.loadOptions.map fun loaded => .options loaded.1, c)
  | .search plan params => ((c.search plan params).map .works, c)
  | .setReadOnly on => (.ok .done, { c with readOnly := on })
  | .drop table => (.ok .done, { c with catalogue := c.catalogue.drop table })

def after (c : Connection) (operations : List Operation) : Connection :=
  operations.foldl (fun c operation => (c.serve operation).2) c

def history (c : Connection) : List Operation → List (Operation × Except StoreError Reply)
  | [] => []
  | operation :: operations =>
    (operation, (c.serve operation).1) :: (c.serve operation).2.history operations

theorem after_cons (c : Connection) (operation : Operation) (operations : List Operation) :
    c.after (operation :: operations) = (c.serve operation).2.after operations := rfl

theorem after_append (c : Connection) (a b : List Operation) :
    c.after (a ++ b) = (c.after a).after b :=
  List.foldl_append

def Insert.target : Insert → WriteTarget
  | .metadata row => .metadata row.work
  | .tag row => .tag row.work
  | .title row => .title row.work

def Insert.change (catalogue : Catalogue) : Insert → Catalogue
  | .metadata row => catalogue.putMetadata row
  | .tag row => catalogue.addTag row
  | .title row => catalogue.addTitle row

def Operation.change (catalogue : Catalogue) : Operation → Catalogue
  | .insert row => row.change catalogue
  | .setSetting key value => catalogue.putSetting ⟨key, value⟩
  | .saveOptions options => catalogue.putSetting ⟨optionsKey, options.render⟩
  | .drop table => catalogue.drop table
  | .getSetting _ | .loadOptions | .search _ _ | .setReadOnly _ => catalogue

/-- A write succeeds if its table is there and writes are not refused. -/
theorem write_eq_ok_iff {c next : Connection} {target : WriteTarget}
    {change : Catalogue → Catalogue} : c.write target change = .ok next ↔
      c.catalogue.has target.table = true ∧ c.readOnly = false ∧
        next = { c with catalogue := change c.catalogue } := by
  unfold write
  cases c.catalogue.has target.table with
  | false => simp
  | true =>
    cases c.readOnly with
    | true => simp
    | false => simp [eq_comm]

theorem insert_eq (c : Connection) (row : Insert) :
    c.insert row = c.write row.target fun catalogue => row.change catalogue := by
  cases row <;> rfl

theorem insert_eq_ok_iff {c next : Connection} {row : Insert} : c.insert row = .ok next ↔
    c.catalogue.has row.target.table = true ∧ c.readOnly = false ∧
      next = { c with catalogue := row.change c.catalogue } := by
  rw [insert_eq]
  exact write_eq_ok_iff

theorem setSetting_eq_ok_iff {c next : Connection} {key value : List Char} :
    c.setSetting key value = .ok next ↔ c.catalogue.has .settings = true ∧ c.readOnly = false ∧
      next = { c with catalogue := c.catalogue.putSetting ⟨key, value⟩ } :=
  write_eq_ok_iff

/-- What is left of a change to a connection. -/
theorem catalogue_changed {c : Connection} {result : Except StoreError Connection}
    (change : Catalogue → Catalogue)
    (h : ∀ next, result = .ok next → next = { c with catalogue := change c.catalogue }) :
    (c.changed result).2.catalogue =
      if (c.changed result).1.isOk then change c.catalogue else c.catalogue := by
  cases result with
  | error e => rfl
  | ok next =>
    rw [h next rfl]
    rfl

/-- An operation makes its change if it succeeds, and none if it fails. -/
theorem catalogue_serve (c : Connection) (operation : Operation) :
    (c.serve operation).2.catalogue =
      if (c.serve operation).1.isOk then operation.change c.catalogue else c.catalogue := by
  cases operation with
  | insert row => exact catalogue_changed (row.change ·) fun _ h => (insert_eq_ok_iff.mp h).2.2
  | setSetting key value =>
    exact catalogue_changed (·.putSetting ⟨key, value⟩) fun _ h => (setSetting_eq_ok_iff.mp h).2.2
  | saveOptions options =>
    exact catalogue_changed (·.putSetting ⟨optionsKey, options.render⟩) fun _ h =>
      (setSetting_eq_ok_iff.mp h).2.2
  | getSetting | loadOptions | search => exact (ite_self _).symm
  | setReadOnly | drop => rfl

end TagQuery.Connection
