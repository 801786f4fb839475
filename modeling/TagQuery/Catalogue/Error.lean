import TagQuery.Catalogue.Search
import TagQuery.Failure
import TagQuery.Files

/-! What can go wrong with a catalogue, and how it is reported. -/
namespace TagQuery

inductive WriteFault where
  | missing (table : Table)
  | readOnly
  deriving DecidableEq, Repr

def missingMessage (table : Table) : String :=
  "no such table: " ++ table.name

def WriteFault.message : WriteFault → String
  | .missing table => missingMessage table
  | .readOnly => "attempt to write a readonly database"

inductive WriteTarget where
  | metadata (work : Int)
  | tag (work : Int)
  | title (work : Int)
  | setting (key : List Char)
  deriving DecidableEq, Repr

def WriteTarget.table : WriteTarget → Table
  | .metadata _ => .metadata
  | .tag _ => .tags
  | .title _ => .titles
  | .setting _ => .settings

def WriteTarget.context : WriteTarget → String
  | .metadata work => "Failed to insert metadata for " ++ toString work
  | .tag work => "Failed to insert tag for " ++ toString work
  | .title work => "Failed to insert title for " ++ toString work
  | .setting key => "Failed to store setting " ++ String.ofList key

inductive StoreError where
  | createDirectory (path : List Char) (fault : DirectoryFault)
  | notAFile (path : List Char)
  | nulInName (position : Nat)
  | notACatalogue
  | write (target : WriteTarget) (fault : WriteFault)
  | readSetting (key : List Char)
  | search (fault : SearchFault)
  deriving DecidableEq, Repr

def SearchFault.failure : SearchFault → Failure
  | .tooManyPlaceholders text => .during .readFailed "Failed to prepare search query"
      ("too many SQL variables in " ++ String.ofList text ++ " at offset "
        ++ toString (Sql.placeholderOffset 0 placeholderLimit text))
  | .tooManySources => .during .readFailed "Failed to prepare search query"
      ("too many FROM clause terms, max: " ++ toString sourceLimit)
  | .tooDeep => .during .readFailed "Failed to prepare search query"
      ("Expression tree is too large (maximum depth " ++ toString depthLimit ++ ")")
  | .unreadable => .during .readFailed "Failed to prepare search query" "syntax error"
  | .missing table => .during .readFailed "Failed to prepare search query" (missingMessage table)
  | .tooManyTables => .during .readFailed "Failed to prepare search query"
      ("at most " ++ toString tableLimit ++ " tables in a join")
  | .paramCount given needed => .during .readFailed "Failed to query search results"
      ("Wrong number of parameters passed to query. Got " ++ toString given ++ ", needed "
        ++ toString needed)
  | .patternTooLong => .during .readFailed "Failed to read search result"
      "LIKE or GLOB pattern too complex"

def StoreError.failure : StoreError → Failure
  | .createDirectory path fault =>
    .during .openFailed ("Failed to create data dir " ++ String.ofList path) fault.message
  | .notAFile path =>
    .during .openFailed "Failed to open db" ("unable to open database file: " ++ String.ofList path)
  | .nulInName position => .during .openFailed "Failed to open db"
      ("nul byte found in provided data at position: " ++ toString position)
  | .notACatalogue =>
    .during .schemaInitFailed "Failed to init schema" "file is not a database"
  | .write target fault => .during .writeFailed target.context fault.message
  | .readSetting key =>
    .during .readFailed ("Failed to read setting " ++ String.ofList key) (missingMessage .settings)
  | .search fault => fault.failure

end TagQuery
