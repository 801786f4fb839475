import Mathlib.Algebra.BigOperators.Group.List.Basic
import Mathlib.Data.List.Forall2
import TagQuery.Proofs.Meaning

/-! A statement must not have too many placeholders, join too many tables or nest its conditions too
deeply, and no pattern that is compared may be too long. Main statements: on a catalogue with all
its tables a plan can be run exactly if it keeps to the limits on statements, and then only a
pattern that is too long can make the search fail. -/
namespace TagQuery

namespace Sql.Reading

theorem levels_le_iff (r : Reading) (n : Nat) :
    (∀ d, Mark.level d ∈ r.marks → d ≤ n) ↔ r.depth ≤ n := by
  constructor
  · intro levels
    rcases r.level_depth with zero | deepest
    · omega
    · exact levels _ deepest
  · intro le d hd
    exact Nat.le_trans (r.level_le d hd) le

/-- Each link of a chain adds a level at most. -/
theorem depth_foldl_both_le {n : Nat} {rs : List Reading} (h : ∀ r ∈ rs, r.depth ≤ n)
    {r : Reading} {k : Nat} (hr : r.depth ≤ n + k) :
    (rs.foldl both r).depth ≤ n + k + rs.length := by
  induction rs generalizing r k with
  | nil => exact hr
  | cons r' rs ih =>
    have first : (r.both r').depth ≤ n + (k + 1) := by
      have le := h r' List.mem_cons_self
      rw [depth_both]
      omega
    have rest := ih (fun x hx => h x (List.mem_cons_of_mem r' hx)) first
    rw [List.foldl_cons, List.length_cons]
    omega

theorem depth_chain_le {n : Nat} {rs : List Reading} (h : ∀ r ∈ rs, r.depth ≤ n) :
    (chain rs).depth ≤ n + rs.length := by
  cases rs with
  | nil => exact Nat.zero_le _
  | cons r rs =>
    have first : r.depth ≤ n + 0 := h r List.mem_cons_self
    have rest := depth_foldl_both_le (fun x hx => h x (List.mem_cons_of_mem r hx)) first
    rw [chain, List.length_cons]
    omega

theorem depth_le_foldl_both (rs : List Reading) (r : Reading) :
    r.depth ≤ (rs.foldl both r).depth := by
  induction rs generalizing r with
  | nil => exact Nat.le_refl _
  | cons r' rs ih =>
    have step : r.depth ≤ (r.both r').depth := by
      rw [depth_both]
      omega
    exact Nat.le_trans step (ih (r.both r'))

theorem depth_chain_append (rs rs' : List Reading) :
    (chain rs).depth ≤ (chain (rs ++ rs')).depth := by
  cases rs with
  | nil => exact Nat.zero_le _
  | cons r rs =>
    rw [List.cons_append, chain, chain, List.foldl_append]
    exact depth_le_foldl_both rs' _

/-- The reading of an expression that takes these parameters. It is no source of rows itself. -/
structure Binds {α : Type} (r : Reading) (params : List α) : Prop where
  placeholders : r.marks.count .placeholder = params.length
  sources : r.marks.count .source = 0

section Binds

variable {α : Type} {a b : Reading} {xs ys : List α}

theorem binds_nothing : nothing.Binds ([] : List α) := ⟨rfl, rfl⟩
theorem binds_column : column.Binds ([] : List α) := ⟨rfl, rfl⟩
theorem binds_qualified : qualified.Binds ([] : List α) := ⟨rfl, rfl⟩
theorem binds_placeholder (x : α) : placeholder.Binds [x] := ⟨rfl, rfl⟩

theorem Binds.above (h : a.Binds xs) : a.above.Binds xs where
  placeholders := by simpa [Reading.above] using h.placeholders
  sources := by simpa [Reading.above] using h.sources

theorem Binds.beside (ha : a.Binds xs) (hb : b.Binds ys) : (a.beside b).Binds (xs ++ ys) where
  placeholders := by
    rw [Reading.beside, List.count_append, ha.placeholders, hb.placeholders, List.length_append,
      Nat.add_comm]
  sources := by rw [Reading.beside, List.count_append, ha.sources, hb.sources]

theorem Binds.both (ha : a.Binds xs) (hb : b.Binds ys) : (a.both b).Binds (xs ++ ys) :=
  (ha.beside hb).above

theorem Binds.like (h : a.Binds ([] : List α)) (x : α) : a.like.Binds [x] :=
  h.both (binds_placeholder x)

theorem Binds.foldl {rs : List Reading} {params : List (List α)} (ha : a.Binds xs)
    (h : List.Forall₂ Binds rs params) :
    (rs.foldl Reading.both a).Binds (xs ++ params.flatten) := by
  induction h generalizing a xs with
  | nil => simpa using ha
  | cons first _ ih =>
    have rest := ih (ha.both first)
    rwa [List.append_assoc] at rest

theorem Binds.chain {rs : List Reading} {params : List (List α)}
    (h : List.Forall₂ Binds rs params) : (chain rs).Binds params.flatten := by
  cases h with
  | nil => exact binds_nothing
  | cons first rest => exact first.foldl rest

end Binds

end Sql.Reading

open Sql (Mark Reading)

section Plans

variable {α : Type}

theorem binds_namesReading (names : List α) : (namesReading names).Binds names := by
  have each : List.Forall₂ Reading.Binds (names.map fun _ => Reading.column.like)
      (names.map fun name => [name]) := by
    rw [List.forall₂_map_left_iff, List.forall₂_map_right_iff, List.forall₂_same]
    intro name _
    exact Reading.binds_column.like name
  have whole := Reading.Binds.chain each
  rwa [← List.flatMap_def, List.flatMap_singleton'] at whole

theorem depth_namesReading_le (names : List α) : (namesReading names).depth ≤ 2 + names.length := by
  have each : ∀ r ∈ names.map fun _ => Reading.column.like, r.depth ≤ 2 := by
    intro r hr
    obtain ⟨name, -, rfl⟩ := List.mem_map.mp hr
    exact Nat.le_refl 2
  have whole := Reading.depth_chain_le each
  rwa [List.length_map] at whole

namespace SubQuery

theorem binds_reading (q : SubQuery α) : q.reading.Binds q.params := by
  have space : ∀ x : α, spaceReading.Binds [x] := fun x =>
    Reading.binds_column.above.both (Reading.binds_column.like x)
  cases q with
  | tagged x names =>
    cases names with
    | none => exact space x
    | some names => exact (space x).both (binds_namesReading names)
  | free names title => exact (binds_namesReading names).beside (Reading.binds_column.like title)

theorem binds_exclusionReading (q : SubQuery α) : q.exclusionReading.Binds q.params :=
  (Reading.binds_qualified.both q.binds_reading).above

/-- A sub-query is nested about as deeply as it has parameters. -/
theorem depth_reading_le (q : SubQuery α) : q.reading.depth ≤ q.params.length + 3 := by
  cases q with
  | tagged x names =>
    cases names with
    | none => exact Nat.le_add_left 3 1
    | some names =>
      have le := depth_namesReading_le names
      have space : spaceReading.depth = 3 := rfl
      rw [reading, Reading.depth_both, space, params, List.length_cons]
      omega
  | free names title =>
    have le := depth_namesReading_le names
    have title : Reading.column.like.depth = 2 := rfl
    rw [reading, Reading.depth_beside, params, List.length_append, List.length_singleton]
    omega

theorem depth_exclusionReading_le (q : SubQuery α) :
    q.exclusionReading.depth ≤ q.params.length + 5 := by
  have le := q.depth_reading_le
  have work : Reading.qualified.depth = 2 := rfl
  rw [exclusionReading, Reading.depth_above, Reading.depth_both, work]
  omega

end SubQuery

theorem UploaderTest.binds_reading (t : UploaderTest α) : t.reading.Binds t.params := by
  cases t with
  | like pattern => exact Reading.binds_qualified.like pattern
  | unlike pattern =>
    exact Reading.binds_qualified.above.both (Reading.binds_qualified.like pattern).above
  | present | absent => exact Reading.binds_qualified.above

theorem UploaderTest.depth_reading_le (t : UploaderTest α) : t.reading.depth ≤ 5 := by
  cases t with
  | like _ => exact Nat.le_add_right 3 2
  | unlike _ => exact Nat.le_refl 5
  | present | absent => exact Nat.le_add_right 3 2

namespace Plan

theorem binds_conditions (p : Plan α) : (Reading.chain p.conditionReadings).Binds
    (p.excluded.flatMap (·.params) ++ p.uploaders.flatMap (·.params)) := by
  have each : List.Forall₂ Reading.Binds p.conditionReadings
      (p.excluded.map (·.params) ++ p.uploaders.map (·.params)) := by
    apply List.rel_append
    · rw [List.forall₂_map_left_iff, List.forall₂_map_right_iff, List.forall₂_same]
      exact fun q _ => q.binds_exclusionReading
    · rw [List.forall₂_map_left_iff, List.forall₂_map_right_iff, List.forall₂_same]
      exact fun t _ => t.binds_reading
  have whole := Reading.Binds.chain each
  rwa [List.flatten_append] at whole

theorem placeholders_marks (p : Plan α) : p.marks.count .placeholder = p.params.length := by
  have joined : (p.joined.flatMap fun q => q.reading.marks.reverse ++ [Mark.source]).count
      .placeholder = (p.joined.flatMap (·.params)).length := by
    rw [List.count_flatMap, List.length_flatMap]
    congr 1
    apply List.map_congr_left
    intro q _
    simp [q.binds_reading.placeholders]
  have conditions := p.binds_conditions.placeholders
  rw [marks, List.count_append, List.count_cons_of_ne (by simp), joined, List.count_reverse,
    conditions, params, List.append_assoc, ← List.length_append]

theorem sources_marks (p : Plan α) : p.marks.count .source = p.joined.length + 1 := by
  have joined : (p.joined.flatMap fun q => q.reading.marks.reverse ++ [Mark.source]).count
      .source = p.joined.length := by
    rw [List.count_flatMap]
    induction p.joined with
    | nil => rfl
    | cons q qs ih =>
      rw [List.map_cons, List.sum_cons, ih, List.length_cons, Nat.add_comm]
      simp [q.binds_reading.sources]
  have conditions := p.binds_conditions.sources
  rw [marks, List.count_append, List.count_cons_self, joined, List.count_reverse, conditions]

theorem levels_marks (p : Plan α) (n : Nat) :
    (∀ d, Mark.level d ∈ p.marks → d ≤ n) ↔
      (∀ q ∈ p.joined, q.reading.depth ≤ n) ∧ (Reading.chain p.conditionReadings).depth ≤ n := by
  simp only [← Reading.levels_le_iff, marks]
  constructor
  · intro levels
    refine ⟨fun q hq d hd => levels d ?_, fun d hd => levels d ?_⟩
    · simp only [List.cons_append, List.mem_cons, List.mem_append, List.mem_flatMap]
      exact .inr (.inl ⟨q, hq, by simp [hd]⟩)
    · simp [hd]
  · rintro ⟨joined, conditions⟩ d hd
    simp only [List.cons_append, List.mem_cons, List.mem_append, List.mem_flatMap,
      List.mem_reverse] at hd
    rcases hd with source | ⟨q, hq, hd⟩ | hd
    · cases source
    · exact joined q hq d (by simpa using hd)
    · exact conditions d hd

end Plan

end Plans

namespace Plan

variable {α : Type}

structure WithinLimits (p : Plan α) : Prop where
  placeholders : p.params.length ≤ placeholderLimit
  tables : p.joined.length < tableLimit
  joined : ∀ q ∈ p.joined, q.reading.depth ≤ depthLimit
  depth : p.depth ≤ depthLimit

def limitFaults (p : Plan α) : List SearchFault :=
  [.tooManyPlaceholders p.text, .tooManySources, .tooDeep, .tooManyTables]

theorem readingFault?_eq_none_iff (p : Plan α) {placeholders sources : Nat}
    (hp : placeholders ≤ placeholderLimit) (hs : sources ≤ sourceLimit) (marks : List Mark) :
    p.readingFault? placeholders sources marks = none ↔
      placeholders + marks.count .placeholder ≤ placeholderLimit ∧
      sources + marks.count .source ≤ sourceLimit ∧
      ∀ d, Mark.level d ∈ marks → d ≤ depthLimit := by
  induction marks generalizing placeholders sources with
  | nil => simp [readingFault?, hp, hs]
  | cons m marks ih =>
    cases m with
    | placeholder =>
      rw [readingFault?]
      split
      · simp
        omega
      · next room =>
        rw [ih (by omega) hs]
        simp [Nat.add_assoc, Nat.add_comm 1]
    | source =>
      rw [readingFault?]
      split
      · simp
        omega
      · next room =>
        rw [ih hp (by omega)]
        simp [Nat.add_assoc, Nat.add_comm 1]
    | level d =>
      rw [readingFault?]
      split
      · next deep =>
        simp only [reduceCtorEq, false_iff]
        rintro ⟨-, -, levels⟩
        have le := levels d List.mem_cons_self
        omega
      · next shallow =>
        rw [ih hp hs]
        simp [Nat.le_of_not_lt shallow]

theorem readingFault?_mem {p : Plan α} {placeholders sources : Nat} {marks : List Mark}
    {fault : SearchFault} (h : p.readingFault? placeholders sources marks = some fault) :
    fault ∈ p.limitFaults := by
  induction marks generalizing placeholders sources with
  | nil => cases h
  | cons m marks ih =>
    cases m with
    | placeholder | source | level =>
      rw [readingFault?] at h
      split at h
      · cases h
        simp [limitFaults]
      · exact ih h

/-- A statement that keeps to the limits can be read: the metadata and its joins are few enough, and
the conditions are not deeper before the joins are added to them than after. -/
theorem WithinLimits.readable {p : Plan α} (h : p.WithinLimits) :
    p.readingFault? 0 0 p.marks = none := by
  have few := h.tables
  have deep := h.depth
  have before := Reading.depth_chain_append p.conditionReadings
    (p.joined.map fun _ => Reading.qualified.both Reading.qualified)
  rw [readingFault?_eq_none_iff p (Nat.zero_le _) (Nat.zero_le _), p.placeholders_marks,
    p.sources_marks, p.levels_marks]
  refine ⟨by simpa using h.placeholders, ?_, h.joined, ?_⟩
  · simp only [tableLimit, sourceLimit] at *
    omega
  · rw [Plan.depth] at deep
    omega

theorem withinLimits_of_readable {p : Plan α} (readable : p.readingFault? 0 0 p.marks = none)
    (shallow : p.depth ≤ depthLimit) (few : p.joined.length < tableLimit) : p.WithinLimits := by
  rw [readingFault?_eq_none_iff p (Nat.zero_le _) (Nat.zero_le _), p.placeholders_marks,
    p.levels_marks] at readable
  obtain ⟨placeholders, -, joined, -⟩ := readable
  exact ⟨by omega, few, joined, shallow⟩

end Plan

namespace Catalogue

variable {α : Type} {c : Catalogue}

/-- Where no table is missing, a plan can be run exactly if it keeps to the limits. -/
theorem prepare_cases (tables : ∀ table, c.has table = true) (p : Plan α) :
    p.WithinLimits ∧ c.prepare p = .ok () ∨
      ¬ p.WithinLimits ∧ ∃ fault ∈ p.limitFaults, c.prepare p = .error fault := by
  have present : p.tables.find? (!c.has ·) = none := by simp [tables]
  unfold prepare
  cases readable : p.readingFault? 0 0 p.marks with
  | some fault =>
    refine .inr ⟨fun within => ?_, fault, Plan.readingFault?_mem readable, rfl⟩
    rw [within.readable] at readable
    cases readable
  | none =>
    simp only [present]
    split
    · next deep =>
      refine .inr ⟨fun within => ?_, .tooDeep, by simp [Plan.limitFaults], rfl⟩
      have shallow := within.depth
      omega
    · next shallow =>
      split
      · next many =>
        refine .inr ⟨fun within => ?_, .tooManyTables, by simp [Plan.limitFaults], rfl⟩
        have few := within.tables
        omega
      · next few =>
        exact .inl ⟨Plan.withinLimits_of_readable readable (by omega) (by omega), rfl⟩

end Catalogue

def SearchFault.Blames (fault : SearchFault) (patterns : List (List Char)) : Prop :=
  fault = .patternTooLong ∧ ∃ pattern ∈ patterns, patternLimit < Text.utf8Length pattern

theorem SearchFault.Blames.mono {fault : SearchFault} {patterns patterns' : List (List Char)}
    (h : fault.Blames patterns) (subset : patterns ⊆ patterns') : fault.Blames patterns' := by
  obtain ⟨same, pattern, hp, long⟩ := h
  exact ⟨same, pattern, subset hp, long⟩

section Faults

variable {fault : SearchFault}

theorem blames_of_tryLike {pattern value : List Char} (h : tryLike pattern value = .error fault) :
    fault.Blames [pattern] := by
  unfold tryLike at h
  split at h
  · next long =>
    cases h
    exact ⟨rfl, pattern, List.mem_singleton_self pattern, long⟩
  · cases h

theorem blames_of_anyLike {value : List Char} {patterns : List (List Char)}
    (h : anyLike value patterns = .error fault) : fault.Blames patterns := by
  induction patterns with
  | nil => cases h
  | cons p ps ih =>
    rw [anyLike] at h
    split at h
    · exact (ih h).mono (List.subset_cons_self p ps)
    · exact (blames_of_tryLike h).mono (by simp)

theorem exists_of_worksWhere_error {ρ : Type} {work : ρ → Int} {test : ρ → Except SearchFault Bool}
    {rows : List ρ} (h : worksWhere work test rows = .error fault) :
    ∃ row ∈ rows, test row = .error fault := by
  induction rows with
  | nil => cases h
  | cons row rows ih =>
    rw [worksWhere] at h
    split at h
    · cases h
    · cases h
    · next first =>
      cases h
      exact ⟨row, List.mem_cons_self, first⟩
    · next rest _ =>
      cases h
      obtain ⟨row', hr, failed⟩ := ih rest
      exact ⟨row', List.mem_cons_of_mem row hr, failed⟩

theorem error_of_andThen {a b : Except SearchFault Bool} (h : andThen a b = .error fault) :
    a = .error fault ∨ b = .error fault := by
  match a with
  | .ok true => exact .inr h
  | .ok false => cases h
  | .error _ =>
    cases h
    exact .inl rfl

theorem error_of_map {α β : Type} {f : α → β} {x : Except SearchFault α}
    (h : x.map f = .error fault) : x = .error fault := by
  cases x with
  | ok a => cases h
  | error _ =>
    cases h
    rfl

theorem mem_of_allYes_error {answers : List (Except SearchFault Bool)}
    (h : allYes answers = .error fault) : .error fault ∈ answers := by
  induction answers with
  | nil => cases h
  | cons answer answers ih =>
    rw [allYes_cons] at h
    rcases error_of_andThen h with first | rest
    · rw [first]
      exact List.mem_cons_self
    · exact List.mem_cons_of_mem answer (ih rest)

namespace SubQuery

theorem blames_of_testTag {space : List Char} {names : Option (List (List Char))} {row : TagRow}
    (h : testTag space names row = .error fault) :
    fault.Blames (SubQuery.tagged space names).params := by
  cases present : row.space with
  | none =>
    rw [testTag, present] at h
    cases h
  | some value =>
    rw [testTag_of_space names present] at h
    rcases error_of_andThen h with bySpace | byName
    · refine (blames_of_tryLike bySpace).mono ?_
      cases names <;> simp [params]
    · cases names with
      | none => cases byName
      | some names => exact (blames_of_anyLike byName).mono (List.subset_cons_self space names)

theorem blames_of_works {tags : List TagRow} {titles : List TitleRow} {q : SubQuery (List Char)}
    (h : q.works tags titles = .error fault) : fault.Blames q.params := by
  cases q with
  | tagged space names =>
    obtain ⟨row, -, failed⟩ := exists_of_worksWhere_error h
    exact blames_of_testTag failed
  | free names title =>
    rw [works] at h
    split at h
    · cases h
    · next byTag =>
      cases h
      obtain ⟨row, -, failed⟩ := exists_of_worksWhere_error byTag
      exact (blames_of_anyLike failed).mono (List.subset_append_left names [title])
    · next byTitle _ =>
      cases h
      obtain ⟨row, -, failed⟩ := exists_of_worksWhere_error byTitle
      exact (blames_of_tryLike failed).mono (List.subset_append_right names [title])

end SubQuery

theorem UploaderTest.blames_of_test {row : MetadataRow} {t : UploaderTest (List Char)}
    (h : t.test row = .error fault) : fault.Blames t.params := by
  cases t with
  | like pattern => exact blames_of_tryLike (error_of_map h)
  | unlike pattern =>
    rw [test] at h
    split at h
    · cases h
    · exact blames_of_tryLike (error_of_map h)
  | present | absent => cases h

namespace Plan

theorem exists_of_allWorks_error {tags : List TagRow} {titles : List TitleRow}
    {qs : List (SubQuery (List Char))} (h : allWorks tags titles qs = .error fault) :
    ∃ q ∈ qs, q.works tags titles = .error fault := by
  induction qs with
  | nil => cases h
  | cons q qs ih =>
    rw [allWorks] at h
    split at h
    · cases h
    · next first =>
      cases h
      exact ⟨q, List.mem_cons_self, first⟩
    · next rest _ =>
      cases h
      obtain ⟨q', hq, failed⟩ := ih rest
      exact ⟨q', List.mem_cons_of_mem q hq, failed⟩

theorem mem_joined_of_mem_leading {p : Plan (List Char)} {q : SubQuery (List Char)}
    (h : q ∈ p.leading) : q ∈ p.joined :=
  ((p.forall_joined_iff (· ∈ p.joined)).mp fun _ hq => hq).1 q h

theorem mem_joined_of_mem_following {p : Plan (List Char)} {q : SubQuery (List Char)}
    (h : q ∈ p.following) : q ∈ p.joined :=
  ((p.forall_joined_iff (· ∈ p.joined)).mp fun _ hq => hq).2 q h

theorem blames_of_run {p : Plan (List Char)} {metadata : Metadata} {tags : List TagRow}
    {titles : List TitleRow} (h : p.run metadata tags titles = .error fault) :
    fault.Blames p.params := by
  have subQuery : ∀ q ∈ p.joined ++ p.excluded, q.works tags titles = .error fault →
      fault.Blames p.params := by
    intro q hq failed
    refine (SubQuery.blames_of_works failed).mono fun pattern hp => ?_
    rw [params, ← List.flatMap_append]
    exact List.mem_append_left _ (List.mem_flatMap.mpr ⟨q, hq, hp⟩)
  unfold run at h
  split at h
  · next leads =>
    cases h
    obtain ⟨q, hq, failed⟩ := exists_of_allWorks_error leads
    exact subQuery q (List.mem_append_left _ (mem_joined_of_mem_leading hq)) failed
  · obtain ⟨row, -, failed⟩ := exists_of_worksWhere_error h
    unfold testRow at failed
    split at failed
    · have answer := mem_of_allYes_error failed
      simp only [List.map_map, List.mem_append, List.mem_map, Function.comp_apply] at answer
      rcases answer with (⟨q, hq, failed⟩ | ⟨t, ht, failed⟩) | ⟨q, hq, failed⟩
      · exact subQuery q (List.mem_append_right _ hq) (error_of_map failed)
      · refine (UploaderTest.blames_of_test failed).mono fun pattern hp => ?_
        exact List.mem_append_right _ (List.mem_flatMap.mpr ⟨t, ht, hp⟩)
      · exact subQuery q (List.mem_append_left _ (mem_joined_of_mem_following hq))
          (error_of_map failed)
    · cases failed

end Plan

end Faults

namespace Connection

variable {c : Connection}

/-- A search with the patterns of its own plan goes over a limit on statements, or fails over a
pattern that is too long, or gives an answer. -/
theorem search_params_cases (tables : ∀ table, c.catalogue.has table = true)
    {p : Plan (List Char)} (worded : p.Worded) :
    (¬ p.WithinLimits ∧ ∃ fault ∈ p.limitFaults, c.search p p.params = .error (.search fault)) ∨
    (p.WithinLimits ∧ ∃ fault : SearchFault, fault.Blames p.params ∧
      c.search p p.params = .error (.search fault)) ∨
    (p.WithinLimits ∧ ∃ ids, c.search p p.params = .ok ids) := by
  rw [search, c.catalogue.search_eq worded]
  rcases Catalogue.prepare_cases tables p with ⟨within, prepared⟩ | ⟨beyond, fault, hf, prepared⟩
  · rw [prepared, Plan.bind?_params]
    cases ran : p.run (c.catalogue.metadata.getD .empty) (c.catalogue.tags.getD [])
        (c.catalogue.titles.getD []) with
    | error fault =>
      refine .inr (.inl ⟨within, fault, Plan.blames_of_run ran, ?_⟩)
      simp only [ran]
      rfl
    | ok ids =>
      refine .inr (.inr ⟨within, ids, ?_⟩)
      simp only [ran]
      rfl
  · rw [prepared]
    exact .inl ⟨beyond, fault, hf, rfl⟩

end Connection

end TagQuery
