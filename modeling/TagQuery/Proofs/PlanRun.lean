import TagQuery.Catalogue.Search

/-! A run stops at the first fault, looks at alternatives only until one holds and at conditions
only until one fails. What it answers is said here without any order of evaluation, by what the rows
of the catalogue hold. Main statement: a run that gives an answer lists, in ascending order, exactly
the works whose metadata row the plan accepts. -/
namespace TagQuery

theorem SubQuery.bind?_params {α : Type} (q : SubQuery α) (rest : List α) :
    q.bind? (q.params ++ rest) = some (q, rest) := by
  cases q with
  | tagged space names =>
    cases names with
    | none => rfl
    | some names => simp [bind?, params]
  | free names title => simp [bind?, params]

theorem UploaderTest.bind?_params {α : Type} (t : UploaderTest α) (rest : List α) :
    t.bind? (t.params ++ rest) = some (t, rest) := by
  cases t <;> cases rest <;> rfl

theorem bindAll_params {σ β : Type} {bind? : σ → List β → Option (σ × List β)}
    {params : σ → List β} (h : ∀ item rest, bind? item (params item ++ rest) = some (item, rest))
    (items : List σ) (rest : List β) :
    bindAll bind? items (items.flatMap params ++ rest) = some (items, rest) := by
  induction items with
  | nil => rfl
  | cons item items ih =>
    rw [List.flatMap_cons, List.append_assoc, bindAll, h]
    simp only [ih]

theorem Plan.bind?_params {α : Type} (p : Plan α) : p.bind? p.params = some p := by
  have joined := bindAll_params SubQuery.bind?_params p.joined
    (p.excluded.flatMap (·.params) ++ p.uploaders.flatMap (·.params))
  have excluded := bindAll_params SubQuery.bind?_params p.excluded
    (p.uploaders.flatMap (·.params))
  have uploaders := bindAll_params UploaderTest.bind?_params p.uploaders []
  rw [List.append_nil] at uploaders
  rw [Plan.bind?, Plan.params, List.append_assoc, joined]
  simp only [excluded, uploaders]

@[simp] theorem SubQuery.params_fragment (q : SubQuery (List Char)) :
    q.fragment.params = q.params := rfl

@[simp] theorem SubQuery.params_exclusion (q : SubQuery (List Char)) :
    q.exclusion.params = q.params := rfl

@[simp] theorem UploaderTest.params_fragment (t : UploaderTest (List Char)) :
    t.fragment.params = t.params := rfl

/-- The statement of a plan binds the patterns of the plan in their order. -/
theorem Plan.params_statement (p : Plan (List Char)) : p.statement.params = p.params := by
  have joins : p.select.joins.flatMap (·.fragment.params) = p.joined.flatMap (·.params) := by
    unfold select
    rw [List.flatMap_map]
    simp only [SubQuery.params_fragment]
  have conditions : p.select.conditions.flatMap (·.params) =
      p.excluded.flatMap (·.params) ++ p.uploaders.flatMap (·.params) := by
    unfold select
    rw [List.flatMap_append, List.flatMap_map, List.flatMap_map]
    simp only [SubQuery.params_exclusion, UploaderTest.params_fragment]
  unfold statement Sql.Select.build Sql.Select.params Plan.params
  rw [joins, conditions, List.append_assoc]

/-- An answer that is a fault, or says whether the proposition holds. -/
def Settles (answer : Except SearchFault Bool) (p : Prop) : Prop :=
  ∀ b, answer = .ok b → (b = true ↔ p)

theorem Settles.ok {b : Bool} {p : Prop} (h : b = true ↔ p) : Settles (.ok b) p := by
  intro b' hb
  cases hb
  exact h

theorem Settles.congr {answer : Except SearchFault Bool} {p q : Prop} (h : Settles answer p)
    (hpq : p ↔ q) : Settles answer q :=
  fun b hb => (h b hb).trans hpq

theorem Settles.yes {answer : Except SearchFault Bool} {p : Prop} (h : Settles answer p)
    (ha : answer = .ok true) : p :=
  (h true ha).mp rfl

theorem Settles.no {answer : Except SearchFault Bool} {p : Prop} (h : Settles answer p)
    (ha : answer = .ok false) : ¬ p :=
  fun hp => Bool.false_ne_true ((h false ha).mpr hp)

theorem Settles.map {answer : Except SearchFault Bool} {p q : Prop} {f : Bool → Bool}
    (h : Settles answer p) (hf : ∀ b, (b = true ↔ p) → (f b = true ↔ q)) :
    Settles (answer.map f) q := by
  intro b hb
  match answer with
  | .ok given =>
    cases hb
    exact hf given (h given rfl)
  | .error fault => cases hb

theorem settles_tryLike (pattern value : List Char) :
    Settles (tryLike pattern value) (Like.holds pattern value = true) := by
  intro b hb
  unfold tryLike at hb
  split at hb
  · cases hb
  · cases hb
    rfl

theorem settles_anyLike (value : List Char) (patterns : List (List Char)) :
    Settles (anyLike value patterns) (∃ p ∈ patterns, Like.holds p value = true) := by
  induction patterns with
  | nil => exact .ok (by simp)
  | cons p patterns ih =>
    intro b hb
    have first := settles_tryLike p value
    rw [anyLike] at hb
    split at hb
    · next hp =>
      have no : ¬ Like.holds p value = true := first.no hp
      rw [ih b hb]
      simp only [List.mem_cons, exists_eq_or_imp, or_iff_right no]
    · next hp =>
      cases b with
      | false => exact absurd hb hp
      | true => simp [first.yes hb]

/-- The answer of two conditions, of which the second is looked at only if the first holds. -/
def andThen (a b : Except SearchFault Bool) : Except SearchFault Bool :=
  match a with
  | .ok true => b
  | answer => answer

theorem Settles.andThen {a b : Except SearchFault Bool} {p q : Prop} (ha : Settles a p)
    (hb : Settles b q) : Settles (andThen a b) (p ∧ q) := by
  intro answer h
  match hx : a with
  | .ok true =>
    rw [hb answer h]
    exact (and_iff_right (ha.yes rfl)).symm
  | .ok false =>
    cases h
    simp [ha.no rfl]
  | .error fault => cases h

theorem allYes_cons (x : Except SearchFault Bool) (xs : List (Except SearchFault Bool)) :
    allYes (x :: xs) = andThen x (allYes xs) := by
  match x with
  | .ok true | .ok false | .error fault => rfl

theorem allYes_append (a b : List (Except SearchFault Bool)) :
    allYes (a ++ b) = andThen (allYes a) (allYes b) := by
  induction a with
  | nil => rfl
  | cons x a ih =>
    rw [List.cons_append, allYes_cons, allYes_cons, ih]
    match x with
    | .ok true | .ok false | .error fault => rfl

theorem settles_allYes {α : Type} {f : α → Except SearchFault Bool} {p : α → Prop} (xs : List α)
    (h : ∀ x ∈ xs, Settles (f x) (p x)) : Settles (allYes (xs.map f)) (∀ x ∈ xs, p x) := by
  induction xs with
  | nil => exact .ok (by simp)
  | cons x xs ih =>
    have first := h x List.mem_cons_self
    have others := ih fun y hy => h y (List.mem_cons_of_mem x hy)
    rw [List.map_cons, allYes_cons]
    exact (first.andThen others).congr List.forall_mem_cons.symm

section Rows

variable {ρ : Type} {work : ρ → Int} {test : ρ → Except SearchFault Bool}

/-- Every row was tested without a fault, and those that passed are left. -/
theorem worksWhere_ok {rows : List ρ} {works : List Int}
    (h : worksWhere work test rows = .ok works) :
    (∀ row ∈ rows, ∃ b, test row = .ok b) ∧
      works = (rows.filter fun row => test row matches .ok true).map work := by
  induction rows generalizing works with
  | nil =>
    cases h
    simp
  | cons row rows ih =>
    rw [worksWhere] at h
    split at h
    · next others passed tested =>
      cases h
      obtain ⟨answered, rfl⟩ := ih tested
      exact ⟨List.forall_mem_cons.mpr ⟨⟨true, passed⟩, answered⟩, by simp [passed]⟩
    · next others failed tested =>
      cases h
      obtain ⟨answered, rfl⟩ := ih tested
      exact ⟨List.forall_mem_cons.mpr ⟨⟨false, failed⟩, answered⟩, by simp [failed]⟩
    · cases h
    · cases h

theorem mem_worksWhere {rows : List ρ} {works : List Int} {p : ρ → Prop}
    (h : worksWhere work test rows = .ok works) (settled : ∀ row ∈ rows, Settles (test row) (p row))
    (id : Int) : id ∈ works ↔ ∃ row ∈ rows, work row = id ∧ p row := by
  obtain ⟨answered, rfl⟩ := worksWhere_ok h
  simp only [List.mem_map, List.mem_filter]
  constructor
  · rintro ⟨row, ⟨hrow, passed⟩, rfl⟩
    split at passed
    · next yes => exact ⟨row, hrow, rfl, (settled row hrow).yes yes⟩
    · cases passed
  · rintro ⟨row, hrow, rfl, hp⟩
    obtain ⟨b, hb⟩ := answered row hrow
    have yes : b = true := (settled row hrow b hb).mpr hp
    exact ⟨row, ⟨hrow, by simp [hb, yes]⟩, rfl⟩

theorem sublist_worksWhere {rows : List ρ} {works : List Int}
    (h : worksWhere work test rows = .ok works) : works.Sublist (rows.map work) := by
  obtain ⟨-, rfl⟩ := worksWhere_ok h
  exact List.filter_sublist.map work

end Rows

def SubQuery.Finds (tags : List TagRow) (titles : List TitleRow) (id : Int) :
    SubQuery (List Char) → Prop
  | .tagged space names => ∃ row ∈ tags, row.work = id ∧
      (∃ value ∈ row.space, Like.holds space value = true) ∧
      ∀ patterns ∈ names, ∃ p ∈ patterns, Like.holds p row.name = true
  | .free names title =>
      (∃ row ∈ tags, row.work = id ∧ ∃ p ∈ names, Like.holds p row.name = true) ∨
      ∃ row ∈ titles, row.work = id ∧ Like.holds title row.title = true

def UploaderTest.Passes (uploader : Option (List Char)) : UploaderTest (List Char) → Prop
  | .like pattern => ∃ name ∈ uploader, Like.holds pattern name = true
  | .unlike pattern => ¬ ∃ name ∈ uploader, Like.holds pattern name = true
  | .present => uploader.isSome = true
  | .absent => ¬ uploader.isSome = true

structure Plan.Accepts (p : Plan (List Char)) (tags : List TagRow) (titles : List TitleRow)
    (row : MetadataRow) : Prop where
  joined : ∀ q ∈ p.joined, q.Finds tags titles row.work
  excluded : ∀ q ∈ p.excluded, ¬ q.Finds tags titles row.work
  uploaders : ∀ t ∈ p.uploaders, t.Passes row.uploader

namespace SubQuery

/-- A sub-query without names asks no more than the namespace. -/
theorem testTag_of_space {space value : List Char} (names : Option (List (List Char)))
    {row : TagRow} (h : row.space = some value) :
    testTag space names row = andThen (tryLike space value)
      (match names with
        | none => .ok true
        | some names => anyLike row.name names) := by
  simp only [testTag, h]
  generalize tryLike space value = answer
  cases names with
  | none | some names =>
    match answer with
    | .ok true | .ok false | .error fault => rfl

theorem settles_testTag (space : List Char) (names : Option (List (List Char))) (row : TagRow) :
    Settles (testTag space names row) ((∃ value ∈ row.space, Like.holds space value = true) ∧
      ∀ patterns ∈ names, ∃ p ∈ patterns, Like.holds p row.name = true) := by
  cases present : row.space with
  | none =>
    rw [testTag, present]
    exact .ok (by simp)
  | some value =>
    rw [testTag_of_space names present]
    simp only [Option.mem_some, exists_eq_left']
    apply (settles_tryLike space value).andThen
    cases names with
    | none => exact .ok (by simp)
    | some names => exact (settles_anyLike row.name names).congr (by simp)

theorem mem_works {tags : List TagRow} {titles : List TitleRow} {q : SubQuery (List Char)}
    {works : List Int} (h : q.works tags titles = .ok works) (id : Int) :
    id ∈ works ↔ q.Finds tags titles id := by
  cases q with
  | tagged space names =>
    exact mem_worksWhere h (fun row _ => settles_testTag space names row) id
  | free names title =>
    rw [SubQuery.works] at h
    split at h
    · next byTag byTitle tagged titled =>
      cases h
      rw [List.mem_append, mem_worksWhere tagged (fun row _ => settles_anyLike row.name names),
        mem_worksWhere titled (fun row _ => settles_tryLike title row.title)]
      rfl
    · cases h
    · cases h

theorem settles_inclusion (tags : List TagRow) (titles : List TitleRow) (q : SubQuery (List Char))
    (id : Int) : Settles ((q.works tags titles).map (·.contains id)) (q.Finds tags titles id) := by
  intro b hb
  match hw : q.works tags titles with
  | .ok works =>
    rw [hw] at hb
    cases hb
    simp [← mem_works hw id]
  | .error fault =>
    rw [hw] at hb
    cases hb

theorem settles_exclusion (tags : List TagRow) (titles : List TitleRow) (q : SubQuery (List Char))
    (id : Int) :
    Settles ((q.works tags titles).map (!·.contains id)) (¬ q.Finds tags titles id) := by
  have negated : (q.works tags titles).map (!·.contains id) =
      ((q.works tags titles).map (·.contains id)).map (!·) := by
    cases q.works tags titles <;> rfl
  rw [negated]
  exact (q.settles_inclusion tags titles id).map fun b hb => by simp [← hb]

end SubQuery

theorem UploaderTest.settles_test (row : MetadataRow) (t : UploaderTest (List Char)) :
    Settles (t.test row) (t.Passes row.uploader) := by
  cases t with
  | like pattern =>
    refine (settles_tryLike pattern (row.uploader.getD [])).map fun b hb => ?_
    cases uploader : row.uploader with
    | none => simp [Passes]
    | some name =>
      rw [uploader] at hb
      simpa [Passes] using hb
  | unlike pattern =>
    rw [test]
    cases uploader : row.uploader with
    | none => exact .ok (by simp [Passes])
    | some name =>
      refine (settles_tryLike pattern name).map fun b hb => ?_
      simp [Passes, ← hb]
  | present => exact .ok Iff.rfl
  | absent => exact .ok (by simp [Passes])

namespace Plan

theorem allWorks_ok {tags : List TagRow} {titles : List TitleRow}
    {qs : List (SubQuery (List Char))} {found : List (List Int)}
    (h : allWorks tags titles qs = .ok found) (id : Int) :
    found.all (·.contains id) = true ↔ ∀ q ∈ qs, q.Finds tags titles id := by
  induction qs generalizing found with
  | nil =>
    cases h
    simp
  | cons q qs ih =>
    rw [allWorks] at h
    split at h
    · next works others found rest =>
      cases h
      rw [List.all_cons, Bool.and_eq_true, ih rest, List.contains_iff_mem,
        SubQuery.mem_works found, List.forall_mem_cons]
    · cases h
    · cases h

/-- The joined sub-queries are looked at in two groups, and each of them once. -/
theorem forall_joined_iff (p : Plan (List Char)) (finds : SubQuery (List Char) → Prop) :
    (∀ q ∈ p.joined, finds q) ↔ (∀ q ∈ p.leading, finds q) ∧ ∀ q ∈ p.following, finds q := by
  unfold leading following
  split
  · next joined => simp [joined]
  · simp only [List.not_mem_nil, false_implies, implies_true, true_and, List.mem_append,
      List.mem_filter]
    constructor
    · rintro all q (⟨hq, -⟩ | ⟨hq, -⟩)
      · exact all q hq
      · exact all q hq
    · intro all q hq
      cases free : q.isFree with
      | true => exact all q (.inl ⟨hq, free⟩)
      | false => exact all q (.inr ⟨hq, by simp [free]⟩)

theorem settles_testRow {p : Plan (List Char)} {tags : List TagRow} {titles : List TitleRow}
    {found : List (List Int)} (h : allWorks tags titles p.leading = .ok found)
    (row : MetadataRow) :
    Settles (testRow found (p.excluded.map (·.works tags titles))
        (p.following.map (·.works tags titles)) p.uploaders row)
      (p.Accepts tags titles row) := by
  have leads := allWorks_ok h row.work
  have joined := p.forall_joined_iff (·.Finds tags titles row.work)
  have conditions : Settles
      (allYes ((p.excluded.map (·.works tags titles)).map (·.map (!·.contains row.work))
        ++ p.uploaders.map (·.test row)
        ++ (p.following.map (·.works tags titles)).map (·.map (·.contains row.work))))
      (((∀ q ∈ p.excluded, ¬ q.Finds tags titles row.work) ∧
        ∀ t ∈ p.uploaders, t.Passes row.uploader) ∧
        ∀ q ∈ p.following, q.Finds tags titles row.work) := by
    have excluded := settles_allYes p.excluded fun q _ => q.settles_exclusion tags titles row.work
    have uploaders := settles_allYes p.uploaders fun t _ => t.settles_test row
    have follows := settles_allYes p.following fun q _ => q.settles_inclusion tags titles row.work
    rw [List.map_map, List.map_map, allYes_append, allYes_append]
    exact (excluded.andThen uploaders).andThen follows
  unfold testRow
  split
  · next all =>
    exact conditions.congr
      ⟨fun ⟨⟨e, u⟩, f⟩ => ⟨joined.mpr ⟨leads.mp all, f⟩, e, u⟩,
        fun a => ⟨⟨a.excluded, a.uploaders⟩, (joined.mp a.joined).2⟩⟩
  · next notAll =>
    refine .ok ⟨fun impossible => ?_, fun a => absurd (leads.mpr (joined.mp a.joined).1) notAll⟩
    cases impossible

/-- A run that gives an answer lists the accepted works, each once and in ascending order. -/
theorem run_ok {p : Plan (List Char)} {metadata : Metadata} {tags : List TagRow}
    {titles : List TitleRow} {works : List Int} (h : p.run metadata tags titles = .ok works) :
    works.Pairwise (· < ·) ∧
      ∀ id, id ∈ works ↔ ∃ row ∈ metadata.rows, row.work = id ∧ p.Accepts tags titles row := by
  rw [run] at h
  split at h
  · cases h
  · next leading found =>
    constructor
    · have ascending : (metadata.rows.map (·.work)).Pairwise (· < ·) :=
        List.pairwise_map.mpr metadata.ascending
      exact ascending.sublist (sublist_worksWhere h)
    · exact mem_worksWhere h fun row _ => settles_testRow found row

end Plan

end TagQuery
