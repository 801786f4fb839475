import TagQuery.Options

/-! Events that tell what a search is doing. -/
namespace TagQuery

inductive Event where
  | created (options : Options)
  | read (line : List Char) (clauses : Nat)
  | evicted (line : List Char)
  | compiled (clauses joins conditions params : Nat)
  | executed (params found : Nat)
  | unreadableOptions (error : String)
  deriving DecidableEq, Repr

namespace Event

inductive Field where
  | number (n : Nat)
  | flag (b : Bool)
  | text (s : String)
  deriving DecidableEq, Repr

inductive Level where
  | debug
  | warn
  deriving DecidableEq, Repr

def Level.name : Level → String
  | .debug => "DEBUG"
  | .warn => "WARN"

def level : Event → Level
  | .unreadableOptions _ => .warn
  | _ => .debug

def message : Event → String
  | .created _ => "search feature created"
  | .read _ _ => "parsed search query"
  | .evicted _ => "query cache evicted entry"
  | .compiled _ _ _ _ => "compiled search query"
  | .executed _ _ => "search query executed"
  | .unreadableOptions _ => "ignoring unreadable stored search config"

def fields : Event → List (String × Field)
  | .created o =>
    [("cache_capacity", .number o.cacheCapacity.toNat), ("enable_wildcard", .flag o.wildcards),
      ("lenient", .flag o.lenient)]
  | .read line clauses => [("query", .text (String.ofList line)), ("components", .number clauses)]
  | .evicted line => [("evicted", .text (String.ofList line))]
  | .compiled clauses joins conditions params =>
    [("components", .number clauses), ("joins", .number joins), ("wheres", .number conditions),
      ("params", .number params)]
  | .executed params found => [("params", .number params), ("matches", .number found)]
  | .unreadableOptions error => [("error", .text error)]

end Event

end TagQuery
