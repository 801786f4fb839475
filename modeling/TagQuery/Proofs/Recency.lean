import Mathlib.Data.List.Induction
import Mathlib.Data.List.Nodup
import TagQuery.Proofs.Recall

/-! A history of calls decides what a cache holds: the keys asked for since it was last cleared, the
latest first and each once, as many as there is room for. The cache itself never sees the history.
It moves a key to the front or pushes one out, and counts. Main statements: after any calls the
cache is the one that the history describes; and with more room it holds more, finds more and misses
less. -/
namespace TagQuery.ReadCache

inductive Call where
  | get (key : Key)
  | clear
  deriving DecidableEq, Repr

def Call.key? : Call → Option Key
  | .get key => some key
  | .clear => none

/-- The keys asked for since the cache was last cleared, the latest first. -/
def requested (calls : List Call) : List Key :=
  (calls.reverse.takeWhile (· != .clear)).filterMap Call.key?

/-- The same keys, each only where it was asked for last. -/
def recent (calls : List Call) : List Key :=
  (requested calls).eraseDups

def held (capacity : Nat) (calls : List Call) : List Key :=
  (recent calls).take (max capacity 1)

/-- Whether the call at a position asks for a key, and the key is among those held just before
(if `hit`) or is not (if not). -/
def asksAt (capacity : Nat) (calls : List Call) (hit : Bool) (i : Nat) : Bool :=
  (calls[i]?.bind Call.key?).any fun key => (held capacity (calls.take i)).contains key == hit

/-- How many keys were asked for that were held just before, or that were not. -/
def lookups (capacity : Nat) (calls : List Call) (hit : Bool) : Nat :=
  (List.range calls.length).countP (asksAt capacity calls hit)

/-- Elements may be left out before or after the repeated ones are. -/
theorem eraseDups_filter {α : Type} [DecidableEq α] (p : α → Bool) (xs : List α) :
    (xs.filter p).eraseDups = xs.eraseDups.filter p := by
  match xs with
  | [] => rfl
  | x :: xs =>
    have shorter : (xs.filter (!· == x)).length < xs.length + 1 :=
      Nat.lt_succ_of_le (List.length_filter_le _ _)
    have ih := eraseDups_filter p (xs.filter (!· == x))
    rw [List.filter_filter] at ih
    rw [List.eraseDups_cons, List.filter_cons, List.filter_cons, ← ih]
    split
    · rw [List.eraseDups_cons, List.filter_filter]
      simp only [Bool.and_comm]
    · next out =>
      -- `x` itself is left out, so it makes no difference that its repetitions are too
      congr 1
      apply List.filter_congr
      intro y _
      by_cases hy : y = x
      · simp [hy, out]
      · simp [hy]
termination_by xs.length

/-- An element that is one of the first makes room for the next when it is left out. -/
theorem take_filter_of_mem {α : Type} [DecidableEq α] {xs : List α} (distinct : xs.Nodup) {x : α}
    {n : Nat} (h : x ∈ xs.take (n + 1)) :
    (xs.filter (· != x)).take n = (xs.take (n + 1)).filter (· != x) := by
  induction xs generalizing n with
  | nil => simp at h
  | cons y xs ih =>
    obtain ⟨fresh, distinct⟩ := List.nodup_cons.mp distinct
    rw [List.take_succ_cons] at h ⊢
    by_cases hy : y = x
    · subst hy
      have absent : ∀ z ∈ xs, (z != y) = true := by
        intro z hz
        exact bne_iff_ne.mpr (ne_of_mem_of_not_mem hz fresh)
      have absentTake : ∀ z ∈ xs.take n, (z != y) = true :=
        fun z hz => absent z (List.mem_of_mem_take hz)
      simp [List.filter_eq_self.mpr absent, List.filter_eq_self.mpr absentTake]
    · have later : x ∈ xs.take n := (List.mem_cons.mp h).resolve_left (Ne.symm hy)
      cases n with
      | zero => simp at later
      | succ n => simp [hy, ih distinct later]

/-- One that is not among the first is not missed there. -/
theorem take_filter_of_not_mem {α : Type} [DecidableEq α] {xs : List α} {x : α} {n : Nat}
    (h : x ∉ xs.take (n + 1)) : (xs.filter (· != x)).take n = xs.take n := by
  induction xs generalizing n with
  | nil => rfl
  | cons y xs ih =>
    rw [List.take_succ_cons] at h
    have hy : y ≠ x := fun same => h (same ▸ List.mem_cons_self)
    have later : x ∉ xs.take n := fun hx => h (List.mem_cons_of_mem y hx)
    cases n with
    | zero => rfl
    | succ n => simp [hy, ih later]

variable {capacity : Nat} {calls : List Call} {key : Key}

theorem recent_get (calls : List Call) (key : Key) :
    recent (calls ++ [.get key]) = key :: (recent calls).filter (· != key) := by
  have latest : requested (calls ++ [.get key]) = key :: requested calls := by
    simp [requested, Call.key?]
  rw [recent, latest, List.eraseDups_cons, eraseDups_filter]
  rfl

theorem recent_clear (calls : List Call) : recent (calls ++ [.clear]) = [] := by
  simp [recent, requested]

theorem nodup_recent (calls : List Call) : (recent calls).Nodup := by
  induction calls using List.reverseRecOn with
  | nil => exact List.nodup_nil
  | append_singleton calls call ih =>
    cases call with
    | get key =>
      rw [recent_get]
      exact List.nodup_cons.mpr ⟨by simp, ih.filter _⟩
    | clear =>
      rw [recent_clear]
      exact List.nodup_nil

theorem nodup_held (capacity : Nat) (calls : List Call) : (held capacity calls).Nodup :=
  (nodup_recent calls).sublist (List.take_sublist _ _)

theorem length_held_le (capacity : Nat) (calls : List Call) :
    (held capacity calls).length ≤ max capacity 1 :=
  List.length_take_le _ _

theorem held_clear (capacity : Nat) (calls : List Call) : held capacity (calls ++ [.clear]) = [] := by
  rw [held, recent_clear, List.take_nil]

theorem held_get (capacity : Nat) (calls : List Call) (key : Key) :
    held capacity (calls ++ [.get key]) =
      key :: ((recent calls).filter (· != key)).take (max capacity 1 - 1) := by
  rw [held, recent_get, ← List.take_succ_cons]
  congr 1
  omega

theorem held_eq (capacity : Nat) (calls : List Call) :
    held capacity calls = (recent calls).take (max capacity 1 - 1 + 1) := by
  rw [held]
  congr 1
  omega

theorem held_get_of_mem (h : key ∈ held capacity calls) :
    held capacity (calls ++ [.get key]) = key :: (held capacity calls).filter (· != key) := by
  rw [held_eq] at h
  rw [held_get, take_filter_of_mem (nodup_recent calls) h, held_eq]

/-- A key that is not takes the last place, if all are taken. -/
theorem held_get_of_not_mem (h : key ∉ held capacity calls) :
    held capacity (calls ++ [.get key]) =
      key :: (held capacity calls).take (max capacity 1 - 1) := by
  rw [held_eq] at h
  rw [held_get, take_filter_of_not_mem h, held_eq, List.take_take]
  congr 2
  omega

theorem asksAt_append (call : Call) (hit : Bool) {i : Nat} (h : i < calls.length) :
    asksAt capacity (calls ++ [call]) hit i = asksAt capacity calls hit i := by
  unfold asksAt
  rw [List.getElem?_append_left h, List.take_append_of_le_length (Nat.le_of_lt h)]

/-- The last call is asked about what was held before it. -/
theorem lookups_append (capacity : Nat) (calls : List Call) (call : Call) (hit : Bool) :
    lookups capacity (calls ++ [call]) hit = lookups capacity calls hit +
      if call.key?.any (fun key => (held capacity calls).contains key == hit) then 1 else 0 := by
  have earlier : (List.range calls.length).countP (asksAt capacity (calls ++ [call]) hit) =
      lookups capacity calls hit := by
    apply List.countP_congr
    intro i hi
    rw [asksAt_append call hit (List.mem_range.mp hi)]
  have last : asksAt capacity (calls ++ [call]) hit calls.length =
      call.key?.any fun key => (held capacity calls).contains key == hit := by
    simp [asksAt]
  rw [lookups, List.length_append, List.length_singleton, List.range_succ, List.countP_append,
    earlier, List.countP_singleton, last]

theorem lookups_get (capacity : Nat) (calls : List Call) (key : Key) (hit : Bool) :
    lookups capacity (calls ++ [.get key]) hit = lookups capacity calls hit +
      if (held capacity calls).contains key = hit then 1 else 0 := by
  simp [lookups_append, Call.key?]

theorem lookups_clear (capacity : Nat) (calls : List Call) (hit : Bool) :
    lookups capacity (calls ++ [.clear]) hit = lookups capacity calls hit := by
  simp [lookups_append, Call.key?]

/-- Every key asked for was held or was not. -/
theorem lookups_add (capacity : Nat) (calls : List Call) :
    lookups capacity calls true + lookups capacity calls false =
      calls.countP (·.key?.isSome) := by
  induction calls using List.reverseRecOn with
  | nil => rfl
  | append_singleton calls call ih =>
    rw [List.countP_append, ← ih]
    cases call with
    | get key =>
      rw [lookups_get, lookups_get]
      cases (held capacity calls).contains key <;> simp [Call.key?] <;> omega
    | clear =>
      rw [lookups_clear, lookups_clear]
      rfl

def stored (key : Key) : Key × List Clause :=
  (key, Query.read key.holes key.line)

def keys (cache : ReadCache) : List Key :=
  cache.entries.map (·.1)

def serve (cache : ReadCache) : Call → ReadCache
  | .get key => (cache.get key.line key.holes).cache
  | .clear => cache.clear

def after (capacity : Nat) (calls : List Call) : ReadCache :=
  calls.foldl serve (new capacity)

/-- A cache is as the history of its calls says. -/
structure Mirrors (capacity : Nat) (calls : List Call) (cache : ReadCache) : Prop where
  capacity_eq : cache.capacity = max capacity 1
  entries_eq : cache.entries = (held capacity calls).map stored
  hits_eq : cache.hits = lookups capacity calls true
  misses_eq : cache.misses = lookups capacity calls false

theorem find?_stored (keys : List Key) (key : Key) :
    (keys.map stored).find? (·.1 == key) = if key ∈ keys then some (stored key) else none := by
  induction keys with
  | nil => rfl
  | cons k keys ih =>
    rw [List.map_cons, List.find?_cons]
    by_cases same : k = key
    · simp [stored, same]
    · have other : (k == key) = false := beq_false_of_ne same
      simp only [stored, other, List.mem_cons, Ne.symm same, false_or]
      exact ih

theorem filter_stored (keys : List Key) (key : Key) :
    (keys.map stored).filter (·.1 != key) = (keys.filter (· != key)).map stored := by
  rw [List.filter_map]
  rfl

variable {cache : ReadCache}

theorem Mirrors.keys_eq (h : Mirrors capacity calls cache) : cache.keys = held capacity calls := by
  rw [keys, h.entries_eq, List.map_map]
  exact List.map_id _

theorem Mirrors.get_of_mem (h : Mirrors capacity calls cache) (hk : key ∈ held capacity calls) :
    cache.get key.line key.holes = ⟨Query.read key.holes key.line, true, none,
      { cache with
        entries := (held capacity (calls ++ [.get key])).map stored
        hits := cache.hits + 1 }⟩ := by
  have found : cache.entries.find? (·.1 == ⟨key.line, key.holes⟩) = some (stored key) := by
    rw [h.entries_eq, find?_stored, if_pos hk]
  rw [get_of_found found, h.entries_eq, filter_stored, held_get_of_mem hk]
  rfl

/-- A key that is not is read, and pushes out the last one if all the room is taken. -/
theorem Mirrors.get_of_not_mem (h : Mirrors capacity calls cache)
    (hk : key ∉ held capacity calls) :
    cache.get key.line key.holes = ⟨Query.read key.holes key.line, false,
      (held capacity calls)[max capacity 1 - 1]?,
      { cache with
        entries := (held capacity (calls ++ [.get key])).map stored
        misses := cache.misses + 1 }⟩ := by
  have new : cache.entries.find? (·.1 == ⟨key.line, key.holes⟩) = none := by
    rw [h.entries_eq, find?_stored, if_neg hk]
  have last : (cache.entries.drop (cache.capacity - 1)).head?.map (·.1) =
      (held capacity calls)[max capacity 1 - 1]? := by
    rw [List.head?_drop, h.entries_eq, h.capacity_eq, List.getElem?_map, Option.map_map]
    exact congrFun Option.map_id _
  have kept : stored key :: cache.entries.take (cache.capacity - 1) =
      (held capacity (calls ++ [.get key])).map stored := by
    rw [held_get_of_not_mem hk, h.entries_eq, h.capacity_eq, List.map_cons, List.map_take]
  rw [get_of_new new, last, ← kept]
  rfl

theorem mirrors_new (capacity : Nat) : Mirrors capacity [] (new capacity) where
  capacity_eq := rfl
  entries_eq := by rw [held, List.take_of_length_le (Nat.zero_le _)]; rfl
  hits_eq := rfl
  misses_eq := rfl

/-- What is said of a cache stays true if a key is asked for. -/
theorem Mirrors.get (h : Mirrors capacity calls cache) (key : Key) :
    Mirrors capacity (calls ++ [.get key]) (cache.get key.line key.holes).cache := by
  by_cases hk : key ∈ held capacity calls
  · rw [h.get_of_mem hk]
    refine ⟨h.capacity_eq, rfl, ?_, ?_⟩
    · simp [lookups_get, hk, h.hits_eq]
    · simp [lookups_get, hk, h.misses_eq]
  · rw [h.get_of_not_mem hk]
    refine ⟨h.capacity_eq, rfl, ?_, ?_⟩
    · simp [lookups_get, hk, h.hits_eq]
    · simp [lookups_get, hk, h.misses_eq]

theorem Mirrors.clear (h : Mirrors capacity calls cache) :
    Mirrors capacity (calls ++ [.clear]) cache.clear where
  capacity_eq := h.capacity_eq
  entries_eq := by rw [held_clear]; rfl
  hits_eq := h.hits_eq.trans (lookups_clear capacity calls true).symm
  misses_eq := h.misses_eq.trans (lookups_clear capacity calls false).symm

theorem mirrors_after (capacity : Nat) (calls : List Call) :
    Mirrors capacity calls (after capacity calls) := by
  induction calls using List.reverseRecOn with
  | nil => exact mirrors_new capacity
  | append_singleton calls call ih =>
    -- the last call is made on the cache that the calls before it leave
    rw [after, List.foldl_append]
    cases call with
    | get key => exact ih.get key
    | clear => exact ih.clear

/-- A list without repetitions and with at most one element behind the first `n` has that element
there, and nowhere else. -/
theorem getElem?_eq_some_iff_not_mem_take {α : Type} {xs : List α} (distinct : xs.Nodup) {n : Nat}
    (h : xs.length ≤ n + 1) {x : α} : xs[n]? = some x ↔ x ∈ xs ∧ x ∉ xs.take n := by
  have cut : (xs.take n ++ xs.drop n).Nodup := by rwa [List.take_append_drop]
  rw [← List.head?_drop]
  constructor
  · intro last
    have behind := List.mem_of_mem_head? last
    exact ⟨List.mem_of_mem_drop behind, fun hx => List.disjoint_of_nodup_append cut hx behind⟩
  · rintro ⟨hx, behind⟩
    rw [← List.take_append_drop n xs] at hx
    have last : x ∈ xs.drop n := (List.mem_append.mp hx).resolve_left behind
    have one : (xs.drop n).length ≤ 1 := by
      rw [List.length_drop]
      omega
    match rest : xs.drop n with
    | [] => simp [rest] at last
    | [y] =>
      rw [rest] at last
      rw [List.mem_singleton.mp last]
      rfl
    | y :: z :: ys => simp [rest] at one

/-- Only a key that is not held pushes one out, and only if all the room is taken: the one that was
not asked for the longest. -/
theorem Mirrors.evicted_eq (h : Mirrors capacity calls cache) (key : Key) :
    (cache.get key.line key.holes).evicted =
      if key ∈ held capacity calls ∨ (held capacity calls).length < max capacity 1 then none
      else (held capacity calls).getLast? := by
  by_cases hk : key ∈ held capacity calls
  · rw [h.get_of_mem hk, if_pos (.inl hk)]
  · rw [h.get_of_not_mem hk]
    have fits := length_held_le capacity calls
    split
    · next room =>
      have few := room.resolve_left hk
      exact List.getElem?_eq_none (by omega)
    · next full =>
      have all : (held capacity calls).length = max capacity 1 := by
        have := not_or.mp full
        omega
      rw [List.getLast?_eq_getElem?, all]

/-- The key that is reported is the one that is lost. -/
theorem Mirrors.evicted_iff (h : Mirrors capacity calls cache) (key lost : Key) :
    (cache.get key.line key.holes).evicted = some lost ↔
      lost ∈ cache.keys ∧ lost ∉ (cache.get key.line key.holes).cache.keys := by
  rw [h.keys_eq, (h.get key).keys_eq]
  by_cases hk : key ∈ held capacity calls
  · -- nothing is lost: all but the key itself stay behind it
    rw [h.get_of_mem hk, held_get_of_mem hk]
    by_cases same : lost = key <;> simp [same]
  · have fits := length_held_le capacity calls
    have last := getElem?_eq_some_iff_not_mem_take (nodup_held capacity calls) (x := lost)
      (n := max capacity 1 - 1) (by omega)
    rw [h.get_of_not_mem hk, held_get_of_not_mem hk, last, List.mem_cons, not_or]
    constructor
    · rintro ⟨hl, behind⟩
      exact ⟨hl, ne_of_mem_of_not_mem hl hk, behind⟩
    · rintro ⟨hl, -, behind⟩
      exact ⟨hl, behind⟩

theorem Mirrors.hit_iff (h : Mirrors capacity calls cache) (key : Key) :
    (cache.get key.line key.holes).hit = true ↔ key ∈ held capacity calls := by
  by_cases hk : key ∈ held capacity calls
  · simp [h.get_of_mem hk, hk]
  · simp [h.get_of_not_mem hk, hk]

/-- A cache refines the history of the calls made on it. It stores the keys asked for most recently
since it was last cleared, each once and with the clauses of its line, the latest first. It counts a
hit for a key that was held just before and a miss for any other. It loses a key exactly on a miss
with all the room taken, and then the one that was not asked for the longest, which is never the one
asked for. The counts are numbers; a counter of 64 bits shows them below 2 ^ 64 lookups. -/
theorem after_refines_history (capacity : Nat) (calls : List Call) :
    (after capacity calls).entries = (held capacity calls).map stored ∧
    (held capacity calls).Nodup ∧ (held capacity calls).length ≤ max capacity 1 ∧
    (after capacity calls).hits = lookups capacity calls true ∧
    (after capacity calls).misses = lookups capacity calls false ∧
    (after capacity calls).hits + (after capacity calls).misses =
      calls.countP (·.key?.isSome) ∧
    ∀ key : Key,
      (((after capacity calls).get key.line key.holes).hit = true ↔ key ∈ held capacity calls) ∧
      ((after capacity calls).get key.line key.holes).evicted =
        (if key ∈ held capacity calls ∨ (held capacity calls).length < max capacity 1 then none
          else (held capacity calls).getLast?) ∧
      (∀ lost, ((after capacity calls).get key.line key.holes).evicted = some lost ↔
        lost ∈ (after capacity calls).keys ∧
          lost ∉ ((after capacity calls).get key.line key.holes).cache.keys) ∧
      ((after capacity calls).get key.line key.holes).evicted ≠ some key := by
  have h := mirrors_after capacity calls
  refine ⟨h.entries_eq, nodup_held capacity calls, length_held_le capacity calls, h.hits_eq,
    h.misses_eq, ?_, fun key => ⟨h.hit_iff key, h.evicted_eq key, h.evicted_iff key, ?_⟩⟩
  · rw [h.hits_eq, h.misses_eq]
    exact lookups_add capacity calls
  · intro evicted
    have lost := ((h.evicted_iff key key).mp evicted).2
    rw [(h.get key).keys_eq, held_get] at lost
    exact lost List.mem_cons_self

theorem held_mono {m n : Nat} (h : m ≤ n) (calls : List Call) :
    held m calls <+: held n calls :=
  List.take_prefix_take_left (by omega)

theorem lookups_hits_le {m n : Nat} (h : m ≤ n) (calls : List Call) :
    lookups m calls true ≤ lookups n calls true := by
  apply List.countP_mono_left
  intro i _ hit
  unfold asksAt at hit ⊢
  cases asked : calls[i]?.bind Call.key? with
  | none => simp [asked] at hit
  | some key =>
    rw [asked] at hit
    simp only [Option.any_some, beq_true, List.contains_iff_mem] at hit ⊢
    exact (held_mono h _).subset hit

/-- More room never makes a cache worse. At every moment of the same calls, what the smaller cache
holds is the front of what the larger one holds; so what is found in the smaller is found in the
larger. Counters of 64 bits compare like the counts below 2 ^ 64 lookups. -/
theorem after_monotone {m n : Nat} (h : m ≤ n) (calls : List Call) :
    (after m calls).keys <+: (after n calls).keys ∧
    (∀ key : Key, ((after m calls).get key.line key.holes).hit = true →
      ((after n calls).get key.line key.holes).hit = true) ∧
    (after m calls).hits ≤ (after n calls).hits ∧
    (after n calls).misses ≤ (after m calls).misses := by
  have small := mirrors_after m calls
  have large := mirrors_after n calls
  have fewer := lookups_hits_le h calls
  have same : lookups m calls true + lookups m calls false =
      lookups n calls true + lookups n calls false :=
    (lookups_add m calls).trans (lookups_add n calls).symm
  refine ⟨?_, fun key hit => ?_, ?_, ?_⟩
  · rw [small.keys_eq, large.keys_eq]
    exact held_mono h calls
  · rw [small.hit_iff] at hit
    rw [large.hit_iff]
    exact (held_mono h calls).subset hit
  · rw [small.hits_eq, large.hits_eq]
    exact fewer
  · rw [small.misses_eq, large.misses_eq]
    omega

/-- Two lines in turn, with the first asked for again at the end. -/
private def visits : List Call :=
  [.get ⟨['a'], true⟩, .clear, .get ⟨['a'], true⟩, .get ⟨['b'], true⟩, .get ⟨['a'], true⟩]

theorem after_monotone_visits :
    0 ≤ 2 ∧ (after 0 visits).hits = 0 ∧ (after 2 visits).hits = 1 ∧
      ((after 0 visits).get ['a'] true).hit = true ∧ ((after 2 visits).get ['a'] true).hit = true ∧
      (after 0 visits).keys <+: (after 2 visits).keys ∧
      (after 2 visits).misses ≤ (after 0 visits).misses := by
  have smaller : 0 ≤ 2 := Nat.zero_le 2
  obtain ⟨keys, found, -, misses⟩ := after_monotone smaller visits
  have hit : ((after 0 visits).get ['a'] true).hit = true := by rfl
  exact ⟨smaller, by rfl, by rfl, hit, found ⟨['a'], true⟩ hit, keys, misses⟩

end TagQuery.ReadCache
