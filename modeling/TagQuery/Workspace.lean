import TagQuery.Catalogue.Connection
import TagQuery.Searcher

/-! A workspace: files, the catalogue that is open, and the searcher that asks it. -/
namespace TagQuery

structure Workspace where
  files : Files := {}
  /-- None after a failed attempt to open a catalogue. -/
  connection : Option Connection := some {}
  /-- Where the open catalogue is stored, if it is. -/
  place : Option (List (List Char)) := none
  searcher : Searcher

inductive Refusal where
  | closed
  | store (error : StoreError)
  deriving DecidableEq

namespace Workspace

/-- Takes over a changed connection, and stores its catalogue if it has a place. -/
def keep (w : Workspace) (c : Connection) : Workspace :=
  { w with
    connection := some c
    files := match w.place with
      | some place => w.files.put place (.stored c.catalogue)
      | none => w.files }

def query {α : Type} (w : Workspace) (f : Connection → Except StoreError α) : Except Refusal α :=
  match w.connection with
  | none => .error .closed
  | some c => (f c).mapError .store

def change (w : Workspace) (f : Connection → Except StoreError Connection) :
    Workspace × Except Refusal Unit :=
  match w.query f with
  | .ok c => (w.keep c, .ok ())
  | .error e => (w, .error e)

def changeAll (w : Workspace) :
    List (Connection → Except StoreError Connection) → Workspace × Except Refusal Unit
  | [] => (w, .ok ())
  | f :: fs =>
    match w.change f with
    | (w, .ok ()) => w.changeAll fs
    | (w, .error e) => (w, .error e)

def addWork (w : Workspace) (work : Int) (uploader : Option (List Char))
    (titles : List (List Char)) (tags : List (Option (List Char) × List Char)) :
    Workspace × Except Refusal Unit :=
  w.changeAll ((fun c => c.insertMetadata ⟨work, uploader⟩)
    :: titles.map (fun title c => c.insertTitle ⟨work, title, 0⟩)
    ++ tags.map (fun tag c => c.insertTag ⟨work, tag.1, tag.2, 0⟩))

/-- Runs a plan; the event tells how much was found. -/
def runPlan (w : Workspace) (plan : Plan (List Char)) (params : List (List Char)) :
    Except Refusal (List Int) × List Event :=
  match w.query (·.search plan params) with
  | .ok works => (.ok works, [.executed params.length works.length])
  | .error e => (.error e, [])

/-- Searches for a line. Parameters, if given, replace those of the plan. -/
def search (w : Workspace) (line : List Char) (params : Option (List (List Char))) :
    Step Workspace (Except Refusal (List Int)) :=
  if w.connection.isNone then ⟨.error .closed, [], w⟩
  else
    let plan := w.searcher.compile line
    let found := w.runPlan plan.value (params.getD plan.value.params)
    ⟨found.1, plan.events ++ found.2, { w with searcher := plan.state }⟩

def searchClauses (w : Workspace) (clauses : List Clause) :
    Except Refusal (List Int) × List Event :=
  if w.connection.isNone then (.error .closed, [])
  else
    let plan := Plan.traced clauses
    let found := w.runPlan plan.1 plan.1.params
    (found.1, plan.2 :: found.2)

def loadOptions (w : Workspace) : Except Refusal (Option Options) × List Event :=
  match w.query (·.loadOptions) with
  | .ok (options, events) => (.ok options, events)
  | .error e => (.error e, [])

/-- Replaces the searcher by one with the stored options, or with the defaults. -/
def applyOptions (w : Workspace) : Step Workspace (Except Refusal Options) :=
  match w.loadOptions with
  | (.error e, events) => ⟨.error e, events, w⟩
  | (.ok options, events) =>
    let searcher := Searcher.new (options.getD {})
    ⟨.ok searcher.options, events ++ [searcher.created], { w with searcher }⟩

def setReadOnly (w : Workspace) (on : Bool) : Workspace × Except Refusal Unit :=
  w.change fun c => .ok { c with readOnly := on }

def dropTable (w : Workspace) (name : List Char) : Workspace × Except Refusal Unit :=
  w.change fun c =>
    match Table.ofName? name with
    | some table => .ok { c with catalogue := c.catalogue.drop table }
    | none => .ok c

def openMemory (w : Workspace) : Workspace :=
  { w with connection := some {}, place := none }

/-- Names that stand for a catalogue without a file. -/
def isUnnamed (path : List Char) : Bool :=
  path == [] || path == ":memory:".toList

/-- Opens the catalogue stored at a place whose directory exists. -/
def openPlace (w : Workspace) (path : List Char) : Workspace × Except StoreError Unit :=
  let place := Path.names path
  let opened (c : Catalogue) : Workspace × Except StoreError Unit :=
    ({ w with place := some place }.keep { catalogue := c.complete }, .ok ())
  match w.files.node? place with
  | some .directory => (w, .error (.notAFile path))
  | some (.plain []) => opened {}
  | some (.plain _) => (w, .error .notACatalogue)
  | some (.stored c) => opened c
  | none => opened {}

/-- Closes the open catalogue and opens another. The directory of the path is made first. -/
def openPath (w : Workspace) (path : List Char) : Workspace × Except StoreError Unit :=
  let closed := { w with connection := none, place := none }
  let made :=
    match Path.parent? path with
    | some (c :: parent) =>
      let (files, result) := closed.files.createDirectories (c :: parent)
      ({ closed with files }, result.mapError (StoreError.createDirectory (c :: parent)))
    | _ => (closed, .ok ())
  match made with
  | (w, .error e) => (w, .error e)
  | (w, .ok ()) =>
    if Path.hasNul path then
      (w, .error (.nulInName (Text.utf8Length (path.takeWhile (·.toNat != 0)))))
    else if isUnnamed path then (w.openMemory, .ok ())
    else w.openPlace path

def writeFile (w : Workspace) (path content : List Char) : Workspace :=
  { w with files := w.files.writePlain path content }

def stat (w : Workspace) (path : List Char) : Option Node :=
  w.files.stat path

def initLogging (w : Workspace) (path : List Char) : Workspace × Except DirectoryFault Unit :=
  let (files, result) := w.files.createDirectories path
  ({ w with files }, result)

end Workspace

end TagQuery
