/-! The options of a search. -/
namespace TagQuery

structure Options where
  /-- Whether `?`, `_`, `*` and `%` are holes. -/
  wildcards : Bool := true
  /-- How many lines the reader remembers. -/
  cacheCapacity : UInt64 := 256
  /-- Whether clauses without the modifier `$` may match in part. -/
  lenient : Bool := true
  deriving DecidableEq, Repr

namespace Options

def wildcardsKey : List Char := "enableWildcard".toList
def capacityKey : List Char := "cacheCapacity".toList
def lenientKey : List Char := "lenient".toList

def boolText (b : Bool) : List Char :=
  if b then "true".toList else "false".toList

def memberText (key value : List Char) : List Char :=
  '"' :: key ++ '"' :: ':' :: value

def render (o : Options) : List Char :=
  "\x7b".toList ++ memberText wildcardsKey (boolText o.wildcards)
    ++ ',' :: memberText capacityKey (Nat.toDigits 10 o.cacheCapacity.toNat)
    ++ ',' :: memberText lenientKey (boolText o.lenient) ++ "\x7d".toList

end Options

end TagQuery
