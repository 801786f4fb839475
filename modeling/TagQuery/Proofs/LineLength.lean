import TagQuery.Proofs.Assembly
import TagQuery.Proofs.Limits
import TagQuery.Proofs.Matching
import TagQuery.Proofs.Printing
import TagQuery.Proofs.SetAlgebra

/-! A clause takes two characters of a line at least, one of its own and the separator behind it,
and what it asks for is no larger than what was typed for it. Main statement: a search fails only
where the statement of its line goes over a limit or one of its patterns is too long, and never for
a line of at most 126 characters. -/
namespace TagQuery

namespace Text

theorem length_lowerAt_le (before : List Char) (c : Char) (after : List Char) :
    (lowerAt before c after).length ≤ 2 := by
  unfold lowerAt lowerChar
  repeat' split
  all_goals simp

theorem length_lowercase_le (text : List Char) : (lowercase text).length ≤ 2 * text.length := by
  have from_any : ∀ before, (lowered before text).length ≤ 2 * text.length := by
    induction text with
    | nil => simp [lowered]
    | cons c text ih =>
      intro before
      have first := length_lowerAt_le before c text
      have rest := ih (c :: before)
      rw [lowered, List.length_append, List.length_cons]
      omega
  rw [lowercase_eq_lowered]
  exact from_any []

theorem utf8Length_le (text : List Char) : utf8Length text ≤ 4 * text.length := by
  have from_any : ∀ n, text.foldl (fun n c => n + c.utf8Size) n ≤ n + 4 * text.length := by
    induction text with
    | nil => simp
    | cons c text ih =>
      intro n
      have first := c.utf8Size_le_four
      have rest := ih (n + c.utf8Size)
      rw [List.foldl_cons, List.length_cons]
      omega
  have whole := from_any 0
  rwa [Nat.zero_add] at whole

end Text

theorem length_eraseDups_le {α : Type} [BEq α] (xs : List α) :
    xs.eraseDups.length ≤ xs.length := by
  match xs with
  | [] => simp
  | x :: xs =>
    have fewer := List.length_filter_le (fun y => !y == x) xs
    have rest := length_eraseDups_le (xs.filter fun y => !y == x)
    rw [List.eraseDups_cons, List.length_cons, List.length_cons]
    omega
termination_by xs.length

namespace Phrase

theorem flatten_cutBefore (x : Place) (runs : List (List Place)) :
    (cutBefore x runs).flatten = if divides x then runs.flatten else x :: runs.flatten := by
  unfold cutBefore
  split
  · rfl
  · cases runs <;> rfl

/-- Cutting a phrase only drops the places that divide it. -/
theorem flatten_cuts (places : List Place) :
    (places.foldr cutBefore [[]]).flatten = places.filter (!divides ·) := by
  induction places with
  | nil => rfl
  | cons x places ih =>
    rw [List.foldr_cons, flatten_cutBefore, ih, List.filter_cons]
    cases divides x <;> rfl

theorem length_flatten_cuts_le (places : List Place) :
    (places.foldr cutBefore [[]]).flatten.length ≤ places.length := by
  rw [flatten_cuts]
  exact List.length_filter_le _ _

theorem length_word_le {p : Phrase} {word : List Place} (h : word ∈ p.words) :
    word.length ≤ p.places.length := by
  rw [words, List.mem_eraseDups] at h
  have within := (List.sublist_flatten_of_mem (List.mem_filter.mp h).1).length_le
  exact Nat.le_trans within (length_flatten_cuts_le p.places)

theorem length_words_le (p : Phrase) : p.words.length ≤ p.places.length := by
  have nonempty : ∀ runs : List (List Place),
      (runs.filter (· ≠ [])).length ≤ runs.flatten.length := by
    intro runs
    induction runs with
    | nil => simp
    | cons run runs ih =>
      cases run with
      | nil => simpa using ih
      | cons x run =>
        simp only [ne_eq, reduceCtorEq, not_false_eq_true, decide_true, List.filter_cons_of_pos,
          List.length_cons, List.flatten_cons, List.length_append] at ih ⊢
        omega
  have distinct := length_eraseDups_le ((p.places.foldr cutBefore [[]]).filter (· ≠ []))
  have all := nonempty (p.places.foldr cutBefore [[]])
  have cuts := length_flatten_cuts_le p.places
  rw [words]
  omega

theorem length_likePlaces_le (places : List Place) :
    (places.flatMap likePlace).length ≤ 2 * places.length := by
  induction places with
  | nil => simp
  | cons x places ih =>
    have first : (likePlace x).length ≤ 2 := by
      unfold likePlace Like.escapeChar
      repeat' split
      all_goals simp
    rw [List.flatMap_cons, List.length_append, List.length_cons]
    omega

theorem length_around (places : List Place) : (around places).length = places.length + 2 := by
  simp [around]

theorem length_exactPattern_le (p : Phrase) :
    p.exactPattern.length ≤ 2 * (p.places.length + 2) := by
  have le := length_likePlaces_le p.places
  rw [exactPattern_eq]
  omega

theorem length_containedPattern_le (p : Phrase) :
    p.containedPattern.length ≤ 2 * (p.places.length + 2) := by
  have le := length_likePlaces_le (around p.places)
  rwa [length_around, ← containedPattern_eq] at le

theorem length_namePatterns_le (p : Phrase) (exact : Bool) :
    (p.namePatterns exact).length ≤ p.places.length + 1 := by
  have le := p.length_words_le
  unfold namePatterns lenientPatterns
  repeat' split
  · simp
  · next words =>
    rw [words] at le
    rw [List.length_map]
    omega
  · simp

theorem length_of_mem_namePatterns {p : Phrase} {exact : Bool} {pattern : List Char}
    (h : pattern ∈ p.namePatterns exact) : pattern.length ≤ 2 * (p.places.length + 2) := by
  unfold namePatterns lenientPatterns at h
  split at h
  · rw [List.mem_singleton.mp h]
    exact p.length_exactPattern_le
  · split at h
    · next words =>
      rw [← words] at h
      obtain ⟨word, hw, rfl⟩ := List.mem_map.mp h
      have short := length_word_le hw
      have le := length_likePlaces_le (around word)
      rw [length_around] at le
      rw [wordPattern_eq]
      omega
    · rw [List.mem_singleton.mp h]
      exact p.length_containedPattern_le

theorem length_titlePattern_le (p : Phrase) (exact : Bool) :
    (p.titlePattern exact).length ≤ 2 * (p.places.length + 2) := by
  unfold titlePattern
  split
  · exact p.length_exactPattern_le
  · exact p.length_containedPattern_le

end Phrase

/-- What a clause asks for is as long as this at most. The longest namespace with a short name has
nine letters. -/
def Subject.Within (n : Nat) : Subject → Prop
  | .text p => p.places.length ≤ n
  | .tag space phrase => space.length ≤ n + 9 ∧ ∀ p ∈ phrase, p.places.length ≤ n

theorem Subject.Within.mono {m n : Nat} (le : m ≤ n) {subject : Subject} (h : subject.Within m) :
    subject.Within n := by
  cases subject with
  | text p => exact Nat.le_trans h le
  | tag space phrase =>
    exact ⟨Nat.le_trans h.1 (Nat.add_le_add_right le 9), fun p hp => Nat.le_trans (h.2 p hp) le⟩

namespace Clause

variable {n : Nat} {c : Clause}

theorem length_boundTexts_le (h : c.subject.Within n) : c.boundTexts.length ≤ n + 2 := by
  unfold boundTexts
  cases subject : c.subject with
  | text p =>
    rw [subject] at h
    have names := p.length_namePatterns_le c.exact
    have le : p.places.length ≤ n := h
    rw [List.length_append, List.length_singleton]
    omega
  | tag space phrase =>
    rw [subject] at h
    cases phrase with
    | none =>
      dsimp only
      split <;> simp
    | some p =>
      have names := p.length_namePatterns_le c.exact
      have le := h.2 p rfl
      dsimp only
      split
      · simp
      · rw [List.length_cons, Option.map_some, Option.getD_some]
        omega

theorem length_of_mem_boundTexts (h : c.subject.Within n) {text : List Char}
    (ht : text ∈ c.boundTexts) : text.length ≤ 2 * (n + 9) := by
  unfold boundTexts at ht
  cases subject : c.subject with
  | text p =>
    rw [subject] at h ht
    have le : p.places.length ≤ n := h
    rcases List.mem_append.mp ht with name | title
    · have short := Phrase.length_of_mem_namePatterns name
      omega
    · rw [List.mem_singleton.mp title]
      have short := p.length_titlePattern_le c.exact
      omega
  | tag space phrase =>
    rw [subject] at h ht
    dsimp only at ht
    split at ht
    · rw [Option.mem_toList] at ht
      obtain ⟨p, hp, rfl⟩ := Option.map_eq_some_iff.mp ht
      have le := h.2 p hp
      have short := p.length_exactPattern_le
      omega
    · rcases List.mem_cons.mp ht with rfl | name
      · have le := h.1
        have short := Phrase.length_likePlaces_le (space.map .char)
        rw [← Like.escape_eq, List.length_map] at short
        omega
      · cases phrase with
        | none => cases name
        | some p =>
          have le := h.2 p rfl
          have short := Phrase.length_of_mem_namePatterns name
          omega

end Clause

theorem Namespace.length_resolve_le (name : List Char) :
    (resolve name).length ≤ name.length + 9 := by
  have aliased : ∀ a ∈ aliases, a.2.length ≤ 9 := by decide +kernel
  unfold resolve
  split
  · next a found =>
    have le := aliased a (List.mem_of_find?_eq_some found)
    omega
  · exact Nat.le_add_right _ 9

namespace Query

variable {holes : Bool}

/-- A line of one part is one clause at most, so of two characters one ends a clause. -/
theorem length_read_le (holes : Bool) (line : List Char) :
    2 * (read holes line).length ≤ line.length + 1 := by
  have one : ∀ line, Unbroken false line → 2 * (read holes line).length ≤ line.length + 1 := by
    intro line whole
    cases line with
    | nil => exact Nat.zero_le _
    | cons c line =>
      rw [read_unbroken holes whole, List.length_cons]
      cases ((Text.lowercase (c :: line)).foldl (Draft.feed holes) {}).clause? with
      | none => simp
      | some clause => simp
  induction line using parts_induction with
  | one line whole => exact one line whole
  | more front s rest whole closed separator ih =>
    have first := one front whole
    rw [read_append_closed holes rest closed separator, List.length_append, List.length_append,
      List.length_cons]
    omega

namespace Draft

variable {n : Nat} {d : Draft}

/-- What was read of a clause so far is as long as this at most. -/
structure Within (n : Nat) (d : Draft) : Prop where
  places : d.places.length ≤ n
  space : ∀ space ∈ d.space, space.length ≤ n + 9

theorem Within.mono {m : Nat} (h : d.Within m) (le : m ≤ n) : d.Within n :=
  ⟨Nat.le_trans h.places le, fun space hs => Nat.le_trans (h.space space hs) (by omega)⟩

theorem places_of_phrase? {p : Phrase} (h : d.phrase? = some p) : p.places = d.places := by
  unfold phrase? at h
  unfold places
  cases pieces : d.closed.reverse with
  | nil => simp [pieces, Phrase.ofPieces?] at h
  | cons piece others =>
    rw [pieces] at h
    cases h
    rfl

theorem Within.scope (h : d.Within n) : d.scope.Within n := by
  have read := h.places
  unfold Draft.scope
  split
  · next name found =>
    refine ⟨Nat.zero_le n, fun space hs => ?_⟩
    cases hs
    have typed : name.typed.length = d.places.length := by
      rw [name.typed_eq, List.length_map, places_of_phrase? found]
    have resolved := Namespace.length_resolve_le name.typed
    omega
  · exact h

theorem Within.feed (h : d.Within n) (c : Char) : (d.feed holes c).Within (n + 1) := by
  have read := h.places
  have kept : ∀ d' : Draft, d'.places.length ≤ n + 1 → d'.space = d.space → d'.Within (n + 1) := by
    intro d' places space
    refine ⟨places, ?_⟩
    rw [space]
    exact (h.mono (Nat.le_succ n)).space
  fun_cases Draft.feed holes d c with
  | case1 => exact kept _ (Nat.le_succ_of_le read) rfl
  | case2 | case3 =>
    refine kept _ ?_ rfl
    rw [places_hole, List.length_append]
    exact Nat.succ_le_succ read
  | case4 | case5 => exact kept _ (Nat.le_succ_of_le read) rfl
  | case6 => exact h.scope.mono (Nat.le_succ n)
  | case7 =>
    refine kept _ ?_ rfl
    rw [places_eq] at read ⊢
    simp only [List.length_append, List.length_map, List.length_reverse, List.length_cons] at read ⊢
    omega

theorem Within.foldl (h : d.Within n) (text : List Char) :
    (text.foldl (Draft.feed holes) d).Within (n + text.length) := by
  induction text generalizing d n with
  | nil => exact h
  | cons c text ih =>
    have rest := ih (@Within.feed holes n d h c)
    rwa [Nat.add_assoc, Nat.add_comm 1] at rest

theorem Within.clause (h : d.Within n) {clause : Clause} (hc : d.clause? = some clause) :
    clause.subject.Within n := by
  have phrase : ∀ p ∈ d.phrase?, p.places.length ≤ n := by
    intro p hp
    rw [places_of_phrase? hp]
    exact h.places
  unfold clause? at hc
  split at hc
  · next space named =>
    cases hc
    exact ⟨h.space space named, phrase⟩
  · next p _ found =>
    cases hc
    exact phrase p found
  · cases hc

end Draft

/-- A clause asks for no more than was typed, with room for the letters that have a longer
lowercase. -/
theorem within_read (holes : Bool) (line : List Char) :
    ∀ clause ∈ read holes line, clause.subject.Within (2 * line.length) := by
  have one : ∀ line, Unbroken false line →
      ∀ clause ∈ read holes line, clause.subject.Within (2 * line.length) := by
    intro line whole clause hc
    rw [read_unbroken holes whole, Option.mem_toList] at hc
    have empty : ({} : Draft).Within 0 := ⟨Nat.le_refl 0, by simp⟩
    have fed := (empty.foldl (Text.lowercase line)).clause hc
    rw [Nat.zero_add] at fed
    exact fed.mono (Text.length_lowercase_le line)
  induction line using parts_induction with
  | one line whole => exact one line whole
  | more front s rest whole closed separator ih =>
    intro clause hc
    rw [read_append_closed holes rest closed separator] at hc
    rw [List.length_append, List.length_cons]
    rcases List.mem_append.mp hc with first | later
    · exact (one front whole clause first).mono (by omega)
    · exact (ih clause later).mono (by omega)

end Query

namespace Plan

variable {α : Type} {p : Plan α} {n : Nat}

theorem length_flatMap_le {σ : Type} {f : σ → List α} {items : List σ}
    (h : ∀ x ∈ items, (f x).length ≤ n) : (items.flatMap f).length ≤ items.length * n := by
  induction items with
  | nil => simp
  | cons x items ih =>
    have first := h x List.mem_cons_self
    have rest := ih fun y hy => h y (List.mem_cons_of_mem x hy)
    rw [List.flatMap_cons, List.length_append, List.length_cons, Nat.add_mul, Nat.one_mul]
    omega

theorem foldr_max_le {depths : List Nat} (h : ∀ d ∈ depths, d ≤ n) : depths.foldr max 0 ≤ n := by
  induction depths with
  | nil => exact Nat.zero_le n
  | cons d depths ih =>
    have rest := ih fun y hy => h y (List.mem_cons_of_mem d hy)
    exact Nat.max_le.mpr ⟨h d List.mem_cons_self, rest⟩

theorem length_params_le (subQueries : ∀ q ∈ p.joined ++ p.excluded, q.params.length ≤ n + 1) :
    p.params.length ≤ (p.joined.length + p.excluded.length + p.uploaders.length) * (n + 1) := by
  have texts := length_flatMap_le subQueries
  have uploaders : (p.uploaders.flatMap (·.params)).length ≤ p.uploaders.length * (n + 1) := by
    apply length_flatMap_le
    intro t _
    cases t <;> simp [UploaderTest.params]
  rw [List.length_append] at texts
  rw [params, ← List.flatMap_append, List.length_append, Nat.add_mul]
  exact Nat.add_le_add texts uploaders

theorem depth_le (subQueries : ∀ q ∈ p.joined ++ p.excluded, q.params.length ≤ n + 1) :
    p.depth ≤ 2 * n + 10 + (p.joined.length + p.excluded.length + p.uploaders.length) := by
  have links : ∀ r ∈ p.conditionReadings
      ++ p.joined.map fun _ => Sql.Reading.qualified.both Sql.Reading.qualified,
      r.depth ≤ n + 6 := by
    intro r hr
    simp only [conditionReadings, List.mem_append, List.mem_map] at hr
    rcases hr with (⟨q, hq, rfl⟩ | ⟨t, -, rfl⟩) | ⟨q, -, rfl⟩
    · have few := subQueries q (List.mem_append_right _ hq)
      have le := q.depth_exclusionReading_le
      omega
    · have le := t.depth_reading_le
      omega
    · exact Nat.le_add_left 3 (n + 3)
  have chained := Sql.Reading.depth_chain_le links
  have below : (p.excluded.map (·.reading.depth)).foldr max 0 ≤ n + 4 := by
    apply foldr_max_le
    intro d hd
    obtain ⟨q, hq, rfl⟩ := List.mem_map.mp hd
    have few := subQueries q (List.mem_append_right _ hq)
    have le := q.depth_reading_le
    omega
  simp only [conditionReadings, List.length_append, List.length_map] at chained
  rw [depth, conditionReadings]
  omega

/-- Few parts with few texts each make a statement that keeps to the limits. -/
theorem withinLimits_of_few
    (parts : p.joined.length + p.excluded.length + p.uploaders.length < tableLimit)
    (subQueries : ∀ q ∈ p.joined ++ p.excluded, q.params.length ≤ n + 1) (small : n < 400) :
    p.WithinLimits := by
  have params := length_params_le subQueries
  have depth := depth_le subQueries
  have product : (p.joined.length + p.excluded.length + p.uploaders.length) * (n + 1) ≤ 63 * 400 :=
    Nat.mul_le_mul (Nat.le_of_lt_succ parts) small
  simp only [tableLimit] at parts
  refine ⟨?_, ?_, fun q hq => ?_, ?_⟩
  · simp only [placeholderLimit]
    omega
  · simp only [tableLimit]
    omega
  · have few := subQueries q (List.mem_append_left _ hq)
    have le := q.depth_reading_le
    simp only [depthLimit]
    omega
  · simp only [depthLimit]
    omega

theorem length_parts_ofClauses (clauses : List Clause) :
    (ofClauses clauses).joined.length + (ofClauses clauses).excluded.length
      + (ofClauses clauses).uploaders.length = clauses.length := by
  have joins := length_joins_ofClauses clauses
  have conditions := length_conditions_ofClauses clauses
  have all := length_places clauses
  simp only [select, List.length_map, List.length_append] at joins conditions
  omega

theorem exists_boundTexts {clauses : List Clause} {q : SubQuery (List Char)}
    (h : q ∈ (ofClauses clauses).joined ++ (ofClauses clauses).excluded) :
    ∃ clause ∈ clauses, q.params = clause.boundTexts := by
  rcases List.mem_append.mp h with joined | excluded
  · exact exists_of_mem_filterMap_place Clause.joined?_params joined
  · exact exists_of_mem_filterMap_place Clause.excluded?_params excluded

theorem exists_of_mem_params {clauses : List Clause} {text : List Char}
    (h : text ∈ (ofClauses clauses).params) : ∃ clause ∈ clauses, text ∈ clause.boundTexts := by
  rw [← params_statement, params_ofClauses, List.mem_append, List.mem_append] at h
  simp only [List.mem_flatMap, List.mem_filter] at h
  rcases h with (⟨c, hc, ht⟩ | ⟨c, hc, ht⟩) | ⟨c, hc, ht⟩
  · exact ⟨c, hc.1, ht⟩
  · exact ⟨c, hc.1, ht⟩
  · exact ⟨c, hc.1, ht⟩

end Plan

namespace Searcher

theorem subject_of_mem_tighten {options : Options} {clauses : List Clause} {clause : Clause}
    (h : clause ∈ tighten options clauses) : ∃ c ∈ clauses, c.subject = clause.subject := by
  rw [tighten_eq] at h
  obtain ⟨c, hc, rfl⟩ := List.mem_map.mp h
  exact ⟨c, hc, rfl⟩

/-- The plan of a short line keeps to the limits, and its patterns are short. -/
theorem plan_of_short_line (options : Options) {line : List Char} (short : line.length ≤ 126) :
    (Plan.ofClauses (tighten options (Query.read options.wildcards line))).WithinLimits ∧
    ∀ pattern ∈ (Plan.ofClauses (tighten options (Query.read options.wildcards line))).params,
      Text.utf8Length pattern ≤ patternLimit := by
  have clauses : (tighten options (Query.read options.wildcards line)).length < tableLimit := by
    have few := Query.length_read_le options.wildcards line
    rw [tighten_eq, List.length_map, tableLimit]
    omega
  have within : ∀ clause ∈ tighten options (Query.read options.wildcards line),
      clause.subject.Within 252 := by
    intro clause hc
    obtain ⟨c, read, same⟩ := subject_of_mem_tighten hc
    rw [← same]
    exact (Query.within_read options.wildcards line c read).mono (by omega)
  refine ⟨?_, fun pattern hp => ?_⟩
  · refine @Plan.withinLimits_of_few _ _ 253 ?_ (fun q hq => ?_) (by omega)
    · rw [Plan.length_parts_ofClauses]
      exact clauses
    · obtain ⟨clause, hc, bound⟩ := Plan.exists_boundTexts hq
      rw [bound]
      exact Clause.length_boundTexts_le (within clause hc)
  · obtain ⟨clause, hc, bound⟩ := Plan.exists_of_mem_params hp
    have chars := Clause.length_of_mem_boundTexts (within clause hc) bound
    have bytes := Text.utf8Length_le pattern
    rw [patternLimit]
    omega

/-- On a catalogue with all its tables a search fails in two cases only. Either the statement of the
line goes over a limit on its placeholders, on the tables it joins or on the depth of its
conditions, or one of its patterns is too long; and in the first case it always fails. Neither
happens to a line of at most 126 characters. -/
theorem find_fails_over_limits {options : Options} {s : Searcher} (reached : s.Reached options)
    {c : Connection} (tables : ∀ table, c.catalogue.has table = true) (line : List Char) :
    let plan := Plan.ofClauses (tighten options (Query.read options.wildcards line))
    (¬ plan.WithinLimits →
      ∃ fault ∈ plan.limitFaults, s.find c line = .error (.search fault)) ∧
    (plan.WithinLimits → (∃ ids, s.find c line = .ok ids) ∨
      s.find c line = .error (.search .patternTooLong) ∧
        ∃ pattern ∈ plan.params, patternLimit < Text.utf8Length pattern) ∧
    (line.length ≤ 126 → ∃ ids, s.find c line = .ok ids) := by
  intro plan
  have found : s.find c line = c.search plan plan.params := by
    rw [find, reached.compile_value, Plan.params_statement]
  rw [found]
  have short := @plan_of_short_line options line
  rcases Connection.search_params_cases tables (Plan.worded_ofClauses _) with
    ⟨beyond, failed⟩ | ⟨within, fault, ⟨rfl, long⟩, failed⟩ | ⟨within, answered⟩
  · exact ⟨fun _ => failed, fun within => absurd within beyond,
      fun few => absurd (short few).1 beyond⟩
  · refine ⟨fun beyond => absurd within beyond, fun _ => .inr ⟨failed, long⟩, fun few => ?_⟩
    obtain ⟨pattern, hp, long⟩ := long
    exact absurd ((short few).2 pattern hp) (Nat.not_le_of_lt long)
  · exact ⟨fun beyond => absurd within beyond, fun _ => .inl answered, fun _ => answered⟩

private def reel : Connection where
  catalogue :=
    { metadata := some ⟨[⟨1, none⟩], by decide⟩
      tags := some []
      titles := some [⟨1, ['a'], 0⟩]
      settings := some [] }

private def crowd (n : Nat) : List Char :=
  (List.replicate n ['a', ' ']).flatten

private theorem reel_has (table : Table) : reel.catalogue.has table = true := by
  cases table <;> rfl

theorem find_fails_over_limits_crowd :
    (crowd 63).length = 126 ∧ (∃ ids, (new {}).find reel (crowd 63) = .ok ids) ∧
      ∃ fault ∈ (Plan.ofClauses (tighten {} (Query.read true (crowd 63 ++ ['a'])))).limitFaults,
        (new {}).find reel (crowd 63 ++ ['a']) = .error (.search fault) := by
  have long : (crowd 63).length = 126 := by simp [crowd]
  obtain ⟨-, -, short⟩ := find_fails_over_limits .new reel_has (crowd 63)
  obtain ⟨beyond, -, -⟩ := find_fails_over_limits .new reel_has (crowd 63 ++ ['a'])
  refine ⟨long, short (Nat.le_of_eq long), beyond fun within => ?_⟩
  exact absurd within.tables (by decide +kernel)

/-- Not every line can be searched for: one more character than 126 is enough to ask for too many
tables. -/
theorem crowded_line_fails :
    ¬ ∀ (options : Options) (s : Searcher) (c : Connection) (line : List Char),
      s.Reached options → (∀ table, c.catalogue.has table = true) →
      ∃ ids, s.find c line = .ok ids := by
  intro all
  have failed : (new {}).find reel (crowd 63 ++ ['a']) = .error (.search .tooManyTables) := by
    decide +kernel
  obtain ⟨ids, found⟩ := all {} (new {}) reel (crowd 63 ++ ['a']) .new reel_has
  rw [failed] at found
  cases found

end Searcher

end TagQuery
