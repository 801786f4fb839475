/-! Paths relative to the working directory. -/
namespace TagQuery.Path

/-- Puts a character in front of what follows it, cut at slashes. -/
def cutBefore (c : Char) (segments : List (List Char)) : List (List Char) :=
  if c == '/' then [] :: segments
  else
    match segments with
    | [] => [[c]]
    | s :: rest => (c :: s) :: rest

def segments (path : List Char) : List (List Char) :=
  path.foldr cutBefore [[]]

/-- Segments that name nothing: empty ones, and the dot. -/
def isIdle (segment : List Char) : Bool :=
  segment == [] || segment == ['.']

/-- Drops idle segments from the end. The first segment stays, unless all is empty: it makes the
path absolute, or is the dot that was written. -/
def trimEnd (segments : List (List Char)) : List (List Char) :=
  match segments with
  | [] => []
  | first :: rest => first :: (rest.reverse.dropWhile isIdle).reverse

def text : List (List Char) → List Char
  | [] => []
  | [[]] => ['/']
  | s :: rest => s ++ rest.flatMap ('/' :: ·)

/-- The directory that holds the path; none for the root and the empty path. -/
def parent? (path : List Char) : Option (List Char) :=
  match trimEnd (segments path) with
  | [] => none
  | [[]] => none
  | [_] => some []
  | parts => some (text (trimEnd parts.dropLast))

/-- The names that lead to a place from the working directory; two dots go back by one. -/
def resolve (segments : List (List Char)) : List (List Char) :=
  (segments.foldl (fun names s =>
    if isIdle s then names else if s == ['.', '.'] then names.tail else s :: names) []).reverse

def names (path : List Char) : List (List Char) :=
  resolve (segments path)

/-- The places on the way to a path, in order, the place of the path itself last. -/
def stations (path : List Char) : List (List (List Char)) :=
  let parts := (segments path).filter (!isIdle ·)
  (List.range parts.length).map fun i => resolve (parts.take (i + 1))

/-- Whether a slash or a dot follows the last name. -/
def endsIdle (path : List Char) : Bool :=
  match (segments path).getLast? with
  | some s => isIdle s
  | none => false

def join (directory path : List Char) : List Char :=
  match directory.getLast? with
  | none => path
  | some '/' => directory ++ path
  | some _ => directory ++ '/' :: path

def isAbsolute (path : List Char) : Bool :=
  path.head? == some '/'

def hasNul (path : List Char) : Bool :=
  path.any (·.toNat == 0)

end TagQuery.Path
