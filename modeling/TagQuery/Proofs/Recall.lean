import TagQuery.Searcher

/-! A cache stores, under each line, the clauses that reading the line gives. Looking a line up,
forgetting lines and emptying the cache all keep this, so a searcher answers as if it read every
line anew, whatever it was asked before. Main statement: the replies to any list of requests are
those that each request gets on its own. -/
namespace TagQuery

namespace ReadCache

/-- Every line is remembered with the clauses that reading it gives. -/
def Faithful (cache : ReadCache) : Prop :=
  ∀ entry ∈ cache.entries, entry.2 = Query.read entry.1.holes entry.1.line

theorem faithful_new (capacity : Nat) : (new capacity).Faithful := by
  intro entry h
  cases h

theorem faithful_clear (cache : ReadCache) : cache.clear.Faithful := by
  intro entry h
  cases h

section Lookup

variable {cache : ReadCache} {line : List Char} {holes : Bool}

theorem get_of_found {entry : Key × List Clause}
    (found : cache.entries.find? (·.1 == ⟨line, holes⟩) = some entry) :
    cache.get line holes = ⟨entry.2, true, none,
      { cache with
        entries := entry :: cache.entries.filter (·.1 != ⟨line, holes⟩)
        hits := cache.hits + 1 }⟩ := by
  simp only [get, found]

theorem get_of_new (new : cache.entries.find? (·.1 == ⟨line, holes⟩) = none) :
    cache.get line holes = ⟨Query.read holes line, false,
      (cache.entries.drop (cache.capacity - 1)).head?.map (·.1),
      { cache with
        entries := (⟨line, holes⟩, Query.read holes line) :: cache.entries.take (cache.capacity - 1)
        misses := cache.misses + 1 }⟩ := by
  simp only [get, new]

end Lookup

section Faithful

variable {cache : ReadCache} (h : cache.Faithful) (line : List Char) (holes : Bool)
include h

theorem Faithful.get_clauses : (cache.get line holes).clauses = Query.read holes line := by
  cases found : cache.entries.find? (·.1 == ⟨line, holes⟩) with
  | none => rw [get_of_new found]
  | some entry =>
    have key : entry.1 = ⟨line, holes⟩ := by simpa using List.find?_some found
    have stored := h entry (List.mem_of_find?_eq_some found)
    rw [key] at stored
    rw [get_of_found found]
    exact stored

theorem Faithful.get_cache : (cache.get line holes).cache.Faithful := by
  cases found : cache.entries.find? (·.1 == ⟨line, holes⟩) with
  | none =>
    rw [get_of_new found]
    intro entry kept
    rcases List.mem_cons.mp kept with rfl | old
    · rfl
    · exact h entry (List.mem_of_mem_take old)
  | some latest =>
    rw [get_of_found found]
    intro entry kept
    rcases List.mem_cons.mp kept with rfl | old
    · exact h entry (List.mem_of_find?_eq_some found)
    · exact h entry (List.mem_filter.mp old).1

end Faithful

end ReadCache

namespace Searcher

/-- The searchers that some options lead to, by any number of operations in any order. -/
inductive Reached (options : Options) : Searcher → Prop
  | new : Reached options (new options)
  | read {s : Searcher} (line : List Char) : Reached options s → Reached options (s.read line).state
  | compile {s : Searcher} (line : List Char) :
      Reached options s → Reached options (s.compile line).state
  | clear {s : Searcher} : Reached options s → Reached options s.clear

variable {options : Options} {s : Searcher}

/-- Compiling changes a searcher as reading does: the clauses are tightened in a copy. -/
theorem compile_state (s : Searcher) (line : List Char) :
    (s.compile line).state = (s.read line).state := rfl

theorem Reached.options_eq (h : s.Reached options) : s.options = options := by
  induction h with
  | new => rfl
  | read line _ ih => exact ih
  | compile line _ ih => exact ih
  | clear _ ih => exact ih

theorem Reached.faithful (h : s.Reached options) : s.cache.Faithful := by
  induction h with
  | new => exact ReadCache.faithful_new _
  | read line _ ih => exact ih.get_cache line _
  | compile line _ ih =>
    rw [compile_state]
    exact ih.get_cache line _
  | clear _ _ => exact ReadCache.faithful_clear _

theorem Reached.read_value (h : s.Reached options) (line : List Char) :
    (s.read line).value = Query.read options.wildcards line := by
  rw [← h.options_eq]
  exact h.faithful.get_clauses line s.options.wildcards

theorem Reached.compile_value (h : s.Reached options) (line : List Char) :
    (s.compile line).value =
      Plan.ofClauses (tighten options (Query.read options.wildcards line)) := by
  rw [← h.read_value line, ← h.options_eq]
  rfl

theorem tighten_eq (options : Options) (clauses : List Clause) :
    tighten options clauses =
      clauses.map fun c => { c with exact := c.exact || !options.lenient } := by
  unfold tighten
  cases options.lenient with
  | true => simp
  | false => simp [Clause.setExact]

inductive Request where
  | read (line : List Char)
  | compile (line : List Char)
  | clear
  deriving DecidableEq, Repr

inductive Reply where
  | clauses (clauses : List Clause)
  | statement (statement : Sql.Statement)
  | done
  deriving DecidableEq

def serve (s : Searcher) : Request → Reply × Searcher
  | .read line => let step := s.read line; (.clauses step.value, step.state)
  | .compile line => let step := s.compile line; (.statement step.value.statement, step.state)
  | .clear => (.done, s.clear)

def replies (s : Searcher) : List Request → List Reply
  | [] => []
  | request :: requests => (s.serve request).1 :: (s.serve request).2.replies requests

/-- The reply from reading the line anew. A clause that is compiled becomes exact if the options are
not lenient, and is exact as before if they are. -/
def Request.fresh (options : Options) : Request → Reply
  | .read line => .clauses (Query.read options.wildcards line)
  | .compile line =>
    .statement (Plan.ofClauses ((Query.read options.wildcards line).map
      fun c => { c with exact := c.exact || !options.lenient })).statement
  | .clear => .done

theorem Reached.serve (h : s.Reached options) (request : Request) :
    (s.serve request).2.Reached options := by
  cases request with
  | read line => exact h.read line
  | compile line => exact h.compile line
  | clear => exact h.clear

theorem Reached.serve_fresh (h : s.Reached options) (request : Request) :
    (s.serve request).1 = request.fresh options := by
  cases request with
  | read line => exact congrArg Reply.clauses (h.read_value line)
  | compile line =>
    have plan := h.compile_value line
    rw [tighten_eq] at plan
    exact congrArg (fun p => Reply.statement p.statement) plan
  | clear => rfl

theorem Reached.replies_fresh (h : s.Reached options) (requests : List Request) :
    s.replies requests = requests.map (·.fresh options) := by
  induction requests generalizing s with
  | nil => rfl
  | cons request requests ih =>
    rw [replies, h.serve_fresh request, ih (h.serve request)]
    rfl

/-- The memory of a searcher cannot be told from its replies: whatever lines are read, compiled or
forgotten, and in whatever order, each request is answered as if it were the only one. -/
theorem replies_new (options : Options) (requests : List Request) :
    (new options).replies requests = requests.map (·.fresh options) :=
  Reached.new.replies_fresh requests

end Searcher

end TagQuery
