import TagQuery.Query

/-! A bounded memory of the lines read last, with counts of how often it helped. -/
namespace TagQuery

namespace ReadCache

/-- A line as typed, and whether its wildcards are holes: both decide the clauses. -/
structure Key where
  line : List Char
  holes : Bool
  deriving DecidableEq, Repr

end ReadCache

/-- The lines read last, the latest first. There is room for one line or more. -/
structure ReadCache where
  capacity : Nat
  roomy : 0 < capacity
  entries : List (ReadCache.Key × List Clause) := []
  hits : Nat := 0
  misses : Nat := 0

namespace ReadCache

/-- A cache remembers at least one line. -/
def new (capacity : Nat) : ReadCache where
  capacity := max capacity 1
  roomy := by omega

/-- What reading a line gave, whether it was remembered, and which line was forgotten for it. -/
structure Lookup where
  clauses : List Clause
  hit : Bool
  evicted : Option Key
  cache : ReadCache

/-- The clauses of a line. A remembered line becomes the latest; a new one takes the place of the
oldest if the cache is full. -/
def get (cache : ReadCache) (line : List Char) (holes : Bool) : Lookup :=
  let key : Key := ⟨line, holes⟩
  match cache.entries.find? (·.1 == key) with
  | some entry =>
    ⟨entry.2, true, none,
      { cache with
        entries := entry :: cache.entries.filter (·.1 != key)
        hits := cache.hits + 1 }⟩
  | none =>
    let clauses := Query.read holes line
    ⟨clauses, false, (cache.entries.drop (cache.capacity - 1)).head?.map (·.1),
      { cache with
        entries := (key, clauses) :: cache.entries.take (cache.capacity - 1)
        misses := cache.misses + 1 }⟩

def clear (cache : ReadCache) : ReadCache :=
  { cache with entries := [] }

def length (cache : ReadCache) : Nat :=
  cache.entries.length

inductive RateFault where
  | overflow
  deriving DecidableEq, Repr

def RateFault.message : RateFault → String
  | .overflow => "attempt to add with overflow"

/-- The share of hits: zero before the first reading, else the quotient of the counts, each
rounded to the nearest binary64 number. -/
def rate (hits misses : Nat) : Except RateFault Float :=
  let total := hits + misses
  if UInt64.size ≤ total then .error .overflow
  else if total = 0 then .ok 0
  else .ok ((UInt64.ofNat hits).toFloat / (UInt64.ofNat total).toFloat)

def hitRate (cache : ReadCache) : Except RateFault Float :=
  rate cache.hits cache.misses

end ReadCache

end TagQuery
