import TagQuery.Catalogue
import TagQuery.Files.Path

/-! The files that searches leave behind: directories, plain files and stored catalogues. -/
namespace TagQuery

inductive Node where
  | directory
  | plain (content : List Char)
  | stored (catalogue : Catalogue)
  deriving DecidableEq

/-- What stands at each place; the working directory itself is always there. -/
structure Files where
  nodes : List (List (List Char) × Node) := []

inductive DirectoryFault where
  | isFile
  | belowFile
  | nulInName
  deriving DecidableEq, Repr

def DirectoryFault.message : DirectoryFault → String
  | .isFile => "File exists (os error 17)"
  | .belowFile => "Not a directory (os error 20)"
  | .nulInName => "file name contained an unexpected NUL byte"

namespace Files

def node? (f : Files) (place : List (List Char)) : Option Node :=
  if place.isEmpty then some .directory
  else (f.nodes.find? (·.1 == place)).map (·.2)

def put (f : Files) (place : List (List Char)) (node : Node) : Files :=
  ⟨(place, node) :: f.nodes.filter (·.1 != place)⟩

def isDirectory (f : Files) (place : List (List Char)) : Bool :=
  f.node? place == some .directory

/-- What a path leads to. Everything on the way has to be a directory, and so has the end if the
path goes on after it. -/
def stat (f : Files) (path : List Char) : Option Node :=
  if path.isEmpty || Path.hasNul path then none
  else if (Path.stations path).dropLast.all f.isDirectory then
    match f.node? (Path.names path) with
    | some .directory => some .directory
    | node => if Path.endsIdle path then none else node
  else none

def createAll (f : Files) : List (List (List Char)) → Files × Except DirectoryFault Unit
  | [] => (f, .ok ())
  | place :: places =>
    match f.node? place with
    | some .directory => f.createAll places
    | none => (f.put place .directory).createAll places
    | some _ => (f, .error (if places.isEmpty then .isFile else .belowFile))

def createDirectories (f : Files) (path : List Char) : Files × Except DirectoryFault Unit :=
  if Path.hasNul path then (f, .error .nulInName) else f.createAll (Path.stations path)

def writePlain (f : Files) (path content : List Char) : Files :=
  f.put (Path.names path) (.plain content)

end Files

end TagQuery
