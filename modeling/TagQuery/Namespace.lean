import TagQuery.Text.Fold

/-! Namespaces of tags and the short names that may be typed for them. -/
namespace TagQuery.Namespace

/-- Short names with the namespaces they stand for. -/
def aliases : List (List Char × List Char) := [
  ("a".toList, "artist".toList),
  ("c".toList, "character".toList),
  ("char".toList, "character".toList),
  ("f".toList, "female".toList),
  ("g".toList, "group".toList),
  ("creator".toList, "group".toList),
  ("circle".toList, "group".toList),
  ("l".toList, "language".toList),
  ("lang".toList, "language".toList),
  ("m".toList, "male".toList),
  ("p".toList, "parody".toList),
  ("series".toList, "parody".toList),
  ("r".toList, "reclass".toList)]

/-- The namespace a typed name stands for; a name that is no alias is its own namespace. -/
def resolve (name : List Char) : List Char :=
  match aliases.find? fun a => Text.eqIgnoringAsciiCase a.1 name with
  | some a => a.2
  | none => name

/-- The namespace that is kept with the metadata and not among the tags. -/
def uploader : List Char :=
  "uploader".toList

end TagQuery.Namespace
