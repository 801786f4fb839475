import TagQuery.Event
import TagQuery.Plan.Compile
import TagQuery.ReadCache

/-! Searching with fixed options and a memory of the lines read. -/
namespace TagQuery

/-- The answer of an operation, the events on the way, and the state after it. -/
structure Step (σ α : Type) where
  value : α
  events : List Event
  state : σ

/-- Reads a line; the events tell if it had to be read anew, and what was forgotten for it. -/
def ReadCache.read (c : ReadCache) (line : List Char) (holes : Bool) :
    Step ReadCache (List Clause) :=
  let found := c.get line holes
  ⟨found.clauses,
    if found.hit then []
    else .read line found.clauses.length :: (found.evicted.map (.evicted ·.line)).toList,
    found.cache⟩

structure Searcher where
  options : Options
  cache : ReadCache

def Plan.traced (clauses : List Clause) : Plan (List Char) × Event :=
  let plan := Plan.ofClauses clauses
  (plan, .compiled clauses.length plan.joined.length
    (plan.excluded.length + plan.uploaders.length) plan.params.length)

namespace Searcher

def new (options : Options) : Searcher where
  options
  cache := .new options.cacheCapacity.toNat

def created (s : Searcher) : Event :=
  .created s.options

def clear (s : Searcher) : Searcher :=
  { s with cache := s.cache.clear }

def read (s : Searcher) (line : List Char) : Step Searcher (List Clause) :=
  let found := s.cache.read line s.options.wildcards
  ⟨found.value, found.events, { s with cache := found.state }⟩

/-- Without leniency every clause is exact. -/
def tighten (o : Options) (clauses : List Clause) : List Clause :=
  if o.lenient then clauses else clauses.map (·.setExact true)

def compile (s : Searcher) (line : List Char) : Step Searcher (Plan (List Char)) :=
  let clauses := s.read line
  let plan := Plan.traced (tighten s.options clauses.value)
  ⟨plan.1, clauses.events ++ [plan.2], clauses.state⟩

end Searcher

end TagQuery
