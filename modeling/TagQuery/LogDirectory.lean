import TagQuery.Files.Path

/-! Where logs are kept. -/
namespace TagQuery

/-- The directory of the logs: below the data directory if that is absolute, else below the usual
one of the home directory. -/
def logDirectory (home : List Char) (data : Option (List Char)) : List Char :=
  let base :=
    match data with
    | some data => if Path.isAbsolute data then data else Path.join home ".local/share".toList
    | none => Path.join home ".local/share".toList
  Path.join (Path.join base "manga-tag-search".toList) "logs".toList

end TagQuery
