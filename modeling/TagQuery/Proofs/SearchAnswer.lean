import TagQuery.Proofs.PlanShape
import TagQuery.Proofs.StatementMeaning

/-! A search runs a statement text with parameters, which may be others than those of its plan.
Bound to a plan, parameters change its patterns and nothing else, so the text stays that of the
plan. Main statement: the answer that the text asks for is the one that a run of the bound plan
gives, so that a search is such a run, and the order of evaluation in it decides between an answer
and a fault only. -/
namespace TagQuery

section Binding

variable {α β σ τ : Type}

/-- Items that are bound to as many parameters as their own, if there are so many. -/
structure BindsTo (bind? : σ → List β → Option (τ × List β)) (own : σ → List α)
    (used : τ → List β) : Prop where
  total : ∀ item params, (own item).length ≤ params.length →
    ∃ bound, bind? item params = some bound
  uses : ∀ item params bound rest, bind? item params = some (bound, rest) →
    used bound ++ rest = params ∧ (used bound).length = (own item).length

theorem BindsTo.takes {bind? : σ → List β → Option (τ × List β)} {own : σ → List α}
    {used : τ → List β} (h : BindsTo bind? own used) {item : σ} {params : List β}
    (enough : (own item).length ≤ params.length) :
    ∃ bound rest, bind? item params = some (bound, rest) ∧
      (own item).length + rest.length = params.length := by
  obtain ⟨⟨bound, rest⟩, taken⟩ := h.total item params enough
  obtain ⟨cut, length⟩ := h.uses item params bound rest taken
  refine ⟨bound, rest, taken, ?_⟩
  rw [← cut, List.length_append, length]

/-- A sub-query takes one text for each pattern, in the order of its own. -/
theorem SubQuery.bind?_cases {q : SubQuery α} {params : List β} {bound : SubQuery β}
    {rest : List β} (h : q.bind? params = some (bound, rest)) :
    (∃ space text, q = .tagged space none ∧ bound = .tagged text none ∧
      params = text :: rest) ∨
    (∃ space names text texts, q = .tagged space (some names) ∧ bound = .tagged text (some texts) ∧
      texts.length = names.length ∧ params = text :: (texts ++ rest)) ∨
    (∃ names title texts text, q = .free names title ∧ bound = .free texts text ∧
      texts.length = names.length ∧ params = texts ++ text :: rest) := by
  unfold SubQuery.bind? at h
  split at h
  · cases h
    exact .inl ⟨_, _, rfl, rfl, rfl⟩
  · split at h
    · next enough =>
      cases h
      refine .inr (.inl ⟨_, _, _, _, rfl, rfl, ?_, ?_⟩)
      · rw [List.length_take, Nat.min_eq_left enough]
      · rw [List.take_append_drop]
    · cases h
  · next _ _ names title =>
    split at h
    · next last rest cons =>
      cases h
      refine .inr (.inr ⟨_, _, _, _, rfl, rfl, ?_, ?_⟩)
      · have lengths := congrArg List.length cons
        rw [List.length_drop, List.length_cons] at lengths
        rw [List.length_take]
        omega
      · rw [← cons, List.take_append_drop]
    · cases h
  · cases h

theorem SubQuery.bindsTo : BindsTo (@SubQuery.bind? α β) (·.params) (·.params) where
  total q params enough := by
    cases q with
    | tagged space names =>
      cases params with
      | nil => cases names <;> cases enough
      | cons first params =>
        cases names with
        | none => exact ⟨_, rfl⟩
        | some names => exact ⟨_, if_pos (Nat.le_of_succ_le_succ enough)⟩
    | free names title =>
      simp only [SubQuery.params, List.length_append, List.length_singleton] at enough
      have left : params.drop names.length ≠ [] := by
        intro none_left
        have short := List.drop_eq_nil_iff.mp none_left
        omega
      obtain ⟨last, rest, cons⟩ := List.exists_cons_of_ne_nil left
      exact ⟨_, by rw [SubQuery.bind?, cons]⟩
  uses q params bound rest h := by
    rcases SubQuery.bind?_cases h with ⟨space, text, rfl, rfl, rfl⟩ |
      ⟨space, names, text, texts, rfl, rfl, same, rfl⟩ |
      ⟨names, title, texts, text, rfl, rfl, same, rfl⟩
    · exact ⟨rfl, rfl⟩
    · exact ⟨rfl, by simp [SubQuery.params, same]⟩
    · exact ⟨by simp [SubQuery.params], by simp [SubQuery.params, same]⟩

theorem UploaderTest.bindsTo : BindsTo (@UploaderTest.bind? α β) (·.params) (·.params) where
  total t params enough := by
    cases t with
    | like | unlike =>
      cases params with
      | nil => cases enough
      | cons => exact ⟨_, rfl⟩
    | present | absent => exact ⟨_, rfl⟩
  uses t params bound rest h := by
    unfold UploaderTest.bind? at h
    split at h
    all_goals cases h
    all_goals exact ⟨rfl, rfl⟩

theorem bindAll_cons {bind? : σ → List β → Option (τ × List β)} {item : σ} {items : List σ}
    {params rest : List β} {bounds : List τ}
    (h : bindAll bind? (item :: items) params = some (bounds, rest)) :
    ∃ bound others left, bind? item params = some (bound, left) ∧
      bindAll bind? items left = some (others, rest) ∧ bounds = bound :: others := by
  rw [bindAll] at h
  split at h
  · cases h
  · next first =>
    split at h
    · cases h
    · next later =>
      cases h
      exact ⟨_, _, _, first, later, rfl⟩

theorem BindsTo.all {bind? : σ → List β → Option (τ × List β)} {own : σ → List α}
    {used : τ → List β} (h : BindsTo bind? own used) :
    BindsTo (bindAll bind?) (·.flatMap own) (·.flatMap used) where
  total items := by
    induction items with
    | nil => exact fun params _ => ⟨_, rfl⟩
    | cons item items ih =>
      intro params enough
      rw [List.flatMap_cons, List.length_append] at enough
      have enough_first : (own item).length ≤ params.length := by omega
      obtain ⟨bound, rest, first, left⟩ := h.takes enough_first
      obtain ⟨others, later⟩ := ih rest (by omega)
      refine ⟨(bound :: others.1, others.2), ?_⟩
      rw [bindAll, first]
      simp only [later]
  uses items := by
    induction items with
    | nil =>
      intro params bound rest h
      cases h
      exact ⟨rfl, rfl⟩
    | cons item items ih =>
      intro params bounds rest bound_all
      obtain ⟨bound, others, left, first, later, rfl⟩ := bindAll_cons bound_all
      obtain ⟨cut, length⟩ := h.uses _ _ _ _ first
      obtain ⟨cut', length'⟩ := ih _ _ _ later
      constructor
      · rw [List.flatMap_cons, List.append_assoc, cut', cut]
      · rw [List.flatMap_cons, List.length_append, length, length', List.flatMap_cons,
          List.length_append]

theorem Plan.bind?_parts {p : Plan α} {params : List β} {bound : Plan β}
    (h : p.bind? params = some bound) :
    ∃ rest rest', bindAll SubQuery.bind? p.joined params = some (bound.joined, rest) ∧
      bindAll SubQuery.bind? p.excluded rest = some (bound.excluded, rest') ∧
      bindAll UploaderTest.bind? p.uploaders rest' = some (bound.uploaders, []) := by
  unfold Plan.bind? at h
  split at h
  · cases h
  · next joined =>
    split at h
    · cases h
    · next excluded =>
      split at h
      · next uploaders =>
        cases h
        exact ⟨_, _, joined, excluded, uploaders⟩
      · cases h

theorem Plan.params_bind? {p : Plan α} {params : List β} {bound : Plan β}
    (h : p.bind? params = some bound) : bound.params = params := by
  obtain ⟨rest, rest', joined, excluded, uploaders⟩ := bind?_parts h
  obtain ⟨cut, -⟩ := SubQuery.bindsTo.all.uses _ _ _ _ joined
  obtain ⟨cut', -⟩ := SubQuery.bindsTo.all.uses _ _ _ _ excluded
  obtain ⟨cut'', -⟩ := UploaderTest.bindsTo.all.uses _ _ _ _ uploaders
  rw [List.append_nil] at cut''
  rw [Plan.params, List.append_assoc, ← cut, ← cut', ← cut'']

/-- A plan takes parameters that are as many as its own. -/
theorem Plan.length_of_bind?_eq_none {p : Plan α} {params : List β} (h : p.bind? params = none) :
    params.length ≠ p.params.length := by
  intro enough
  rw [Plan.params, List.length_append, List.length_append] at enough
  have enough_joined : (p.joined.flatMap (·.params)).length ≤ params.length := by omega
  obtain ⟨joined, rest, bound, left⟩ := SubQuery.bindsTo.all.takes enough_joined
  have enough_excluded : (p.excluded.flatMap (·.params)).length ≤ rest.length := by omega
  obtain ⟨excluded, rest', bound', left'⟩ := SubQuery.bindsTo.all.takes enough_excluded
  have enough_uploaders : (p.uploaders.flatMap (·.params)).length ≤ rest'.length := by omega
  obtain ⟨uploaders, rest'', bound'', left''⟩ := UploaderTest.bindsTo.all.takes enough_uploaders
  have used_up : rest'' = [] := List.length_eq_zero_iff.mp (by omega)
  simp [Plan.bind?, bound, bound', bound'', used_up] at h

theorem SubQuery.map_bind? (q : SubQuery α) (params : List β) (bound : SubQuery β) (rest : List β)
    (h : q.bind? params = some (bound, rest)) :
    bound.map (fun _ => ()) = q.map fun _ => () := by
  rcases SubQuery.bind?_cases h with ⟨space, text, rfl, rfl, -⟩ |
    ⟨space, names, text, texts, rfl, rfl, same, -⟩ |
    ⟨names, title, texts, text, rfl, rfl, same, -⟩
  · rfl
  · simp [SubQuery.map, List.map_const', same]
  · simp [SubQuery.map, List.map_const', same]

theorem UploaderTest.map_bind? (t : UploaderTest α) (params : List β) (bound : UploaderTest β)
    (rest : List β) (h : t.bind? params = some (bound, rest)) :
    bound.map (fun _ => ()) = t.map fun _ => () := by
  unfold UploaderTest.bind? at h
  split at h
  all_goals cases h
  all_goals rfl

theorem map_bindAll {υ : Type} {bind? : σ → List β → Option (τ × List β)} {f : τ → υ} {g : σ → υ}
    (h : ∀ item params bound rest, bind? item params = some (bound, rest) → f bound = g item)
    {items : List σ} {params : List β} {bounds : List τ} {rest : List β}
    (all : bindAll bind? items params = some (bounds, rest)) : bounds.map f = items.map g := by
  induction items generalizing params bounds rest with
  | nil =>
    cases all
    rfl
  | cons item items ih =>
    obtain ⟨bound, others, left, first, later, rfl⟩ := bindAll_cons all
    rw [List.map_cons, List.map_cons, h _ _ _ _ first, ih later]

theorem Plan.shape_bind? {p : Plan α} {params : List β} {bound : Plan β}
    (h : p.bind? params = some bound) : bound.shape = p.shape := by
  obtain ⟨rest, rest', joined, excluded, uploaders⟩ := bind?_parts h
  simp only [shape, map, map_bindAll SubQuery.map_bind? joined,
    map_bindAll SubQuery.map_bind? excluded, map_bindAll UploaderTest.map_bind? uploaders]

theorem SubQuery.map_map {γ : Type} (g : β → γ) (f : α → β) (q : SubQuery α) :
    (q.map f).map g = q.map (g ∘ f) := by
  cases q with
  | tagged space names => cases names <;> simp [SubQuery.map]
  | free names title => simp [SubQuery.map]

theorem UploaderTest.map_map {γ : Type} (g : β → γ) (f : α → β) (t : UploaderTest α) :
    (t.map f).map g = t.map (g ∘ f) := by
  cases t <;> rfl

theorem Plan.shape_map (f : α → β) (p : Plan α) : (p.map f).shape = p.shape := by
  simp only [shape, map, List.map_map, Function.comp_def, SubQuery.map_map, UploaderTest.map_map]

/-- The text of a plan is that of the plan with other patterns. -/
theorem Plan.text_of_bind? {p : Plan α} {params : List (List Char)} {bound : Plan (List Char)}
    (h : p.bind? params = some bound) : bound.statement.text = p.text :=
  Plan.text_of_shape ((Plan.shape_bind? h).trans (p.shape_map _).symm)

theorem SubQuery.worded_map (f : α → β) (q : SubQuery α) : (q.map f).Worded ↔ q.Worded := by
  cases q with
  | tagged space names => cases names <;> simp [SubQuery.map, Worded]
  | free names title => simp [SubQuery.map, Worded]

theorem Plan.worded_shape (p : Plan α) : p.shape.Worded ↔ p.Worded := by
  simp only [Worded, shape, map, ← List.map_append, List.forall_mem_map, SubQuery.worded_map]

end Binding

/-- A run that gives an answer gives the one that the text of the plan asks for. -/
theorem Plan.answer?_of_run {α : Type} {c : Catalogue} {p : Plan α} (worded : p.Worded)
    {params : List (List Char)} {bound : Plan (List Char)} (binds : p.bind? params = some bound)
    {works : List Int}
    (ran : bound.run (c.metadata.getD .empty) (c.tags.getD []) (c.titles.getD []) = .ok works) :
    c.answer? p.text params = some works := by
  have boundWorded : bound.Worded := by
    rw [← bound.worded_shape, shape_bind? binds, p.worded_shape]
    exact worded
  obtain ⟨asked, answer, ascending, found⟩ := c.answer?_text boundWorded
  obtain ⟨ascending', found'⟩ := run_ok ran
  have same : asked = works :=
    ascending.eq_of_mem_iff ascending' fun id => (found id).trans (found' id).symm
  rw [text_of_bind? binds, params_bind? binds] at answer
  rw [answer, same]

/-- A search that gives an answer gives the one that the text asks for. -/
theorem Catalogue.answer?_of_search {α : Type} {c : Catalogue} {p : Plan α}
    {params : List (List Char)} {works : List Int} (h : c.search p params = .ok works) :
    c.answer? p.text params = some works := by
  unfold search at h
  split at h
  · cases h
  · split at h
    · cases h
    · split at h
      · cases h
      · split at h
        · next answer =>
          cases h
          exact answer
        · cases h

/-- A search is the run of its plan with the parameters bound to it. -/
theorem Catalogue.search_eq {α : Type} (c : Catalogue) {p : Plan α} (worded : p.Worded)
    (params : List (List Char)) :
    c.search p params =
      match c.prepare p with
      | .error fault => .error fault
      | .ok () =>
        match p.bind? params with
        | none => .error (.paramCount (min params.length (p.params.length + 1)) p.params.length)
        | some bound => bound.run (c.metadata.getD .empty) (c.tags.getD []) (c.titles.getD []) := by
  unfold search
  cases c.prepare p with
  | error fault => rfl
  | ok _ =>
    cases binds : p.bind? params with
    | none => rfl
    | some bound =>
      cases ran : bound.run (c.metadata.getD .empty) (c.tags.getD []) (c.titles.getD []) with
      | error fault => simp only [ran]
      | ok works => simp only [ran, Plan.answer?_of_run worded binds ran]

namespace Phrase

theorem lenientPatterns_ne_nil (p : Phrase) : p.lenientPatterns ≠ [] := by
  unfold lenientPatterns
  split
  · exact List.cons_ne_nil _ _
  · exact List.cons_ne_nil _ _

end Phrase

theorem Clause.worded_subQuery (clause : Clause) : clause.subQuery.Worded := by
  have names (p : Phrase) : p.namePatterns clause.exact ≠ [] := by
    unfold Phrase.namePatterns
    split
    · exact List.cons_ne_nil _ _
    · exact p.lenientPatterns_ne_nil
  unfold subQuery
  split
  · next space phrase _ => cases phrase <;> simp [SubQuery.ofTag, SubQuery.Worded, names]
  · exact names _

/-- Every phrase has a pattern, so the text of clauses can be read. -/
theorem Plan.worded_ofClauses (clauses : List Clause) : (Plan.ofClauses clauses).Worded := by
  intro q hq
  have compiled : ∃ clause, q = Clause.subQuery clause := by
    rcases List.mem_append.mp hq with joined | excluded
    · obtain ⟨clause, -, found⟩ := List.mem_filterMap.mp joined
      unfold Clause.joined? at found
      split at found
      · cases found
      · exact ⟨clause, (Option.some.inj found).symm⟩
    · obtain ⟨clause, -, found⟩ := List.mem_filterMap.mp excluded
      unfold Clause.excluded? at found
      split at found
      · cases found
      · exact ⟨clause, (Option.some.inj found).symm⟩
  obtain ⟨clause, rfl⟩ := compiled
  exact clause.worded_subQuery

end TagQuery
