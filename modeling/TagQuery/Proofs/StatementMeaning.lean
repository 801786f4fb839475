import Mathlib.Data.List.Sort
import TagQuery.Proofs.PlanRun
import TagQuery.Proofs.StatementText

/-! A query is a join of bags of rows under conditions that may be unknown, put in order at the end.
Main statement: on the rows of a catalogue the query of a plan gives, each once and in ascending
order, the works whose metadata row the plan accepts. That a work comes once is due to `DISTINCT`
and `UNION` in the sub-queries, that it comes in its place to `ORDER BY`, and that an exclusion is
never unknown to works being numbers. -/
namespace TagQuery

namespace Sql

namespace Truth

theorem all_eq_yes (truths : List Truth) : all truths = .yes ↔ ∀ t ∈ truths, t = .yes := by
  induction truths with
  | nil => simp [all]
  | cons t truths ih =>
    have step : all (t :: truths) = .yes ↔ t = .yes ∧ all truths = .yes := by
      rw [all, List.foldr_cons, ← all]
      cases t <;> cases all truths <;> decide
    rw [step, ih, List.forall_mem_cons]

theorem any_eq_yes (truths : List Truth) : any truths = .yes ↔ ∃ t ∈ truths, t = .yes := by
  induction truths with
  | nil => simp [any]
  | cons t truths ih =>
    have step : any (t :: truths) = .yes ↔ t = .yes ∨ any truths = .yes := by
      rw [any, List.foldr_cons, ← any]
      cases t <;> cases any truths <;> decide
    rw [step, ih, List.exists_mem_cons_iff]

theorem any_eq_no (truths : List Truth) : any truths = .no ↔ ∀ t ∈ truths, t = .no := by
  induction truths with
  | nil => simp [any]
  | cons t truths ih =>
    have step : any (t :: truths) = .no ↔ t = .no ∧ any truths = .no := by
      rw [any, List.foldr_cons, ← any]
      cases t <;> cases any truths <;> decide
    rw [step, ih, List.forall_mem_cons]

@[simp] theorem not_eq_yes (t : Truth) : t.not = .yes ↔ t = .no := by
  cases t <;> decide

@[simp] theorem ofBool_eq_yes (b : Bool) : ofBool b = .yes ↔ b = true := by
  cases b <;> decide

@[simp] theorem ofBool_eq_no (b : Bool) : ofBool b = .no ↔ b = false := by
  cases b <;> decide

end Truth

theorem Condition.holds_iff (c : Condition (List Datum)) (sources : List Source) :
    c.holds sources = true ↔ ∀ alternatives ∈ c, ∃ l ∈ alternatives, l.truth sources = .yes := by
  rw [holds, beq_iff_eq, Truth.all_eq_yes, List.forall_mem_map]
  simp only [Truth.any_eq_yes, List.mem_map, exists_exists_and_eq_and]

/-- The literals of a condition hold as they are read, with the values of sub-queries in place. -/
theorem Condition.holds_map {σ : Type} (f : σ → List Datum) (c : Condition σ)
    (sources : List Source) :
    (c.map f).holds sources = true ↔
      ∀ alternatives ∈ c, ∃ l ∈ alternatives, (l.map f).truth sources = .yes := by
  rw [holds_iff, Condition.map, List.forall_mem_map]
  simp only [List.mem_map, exists_exists_and_eq_and]

@[simp] theorem Datum.equals_int_eq_yes (a b : Int) :
    (Datum.int a).equals (.int b) = .yes ↔ a = b := by
  simp [Datum.equals]

@[simp] theorem Datum.equals_int_eq_no (a b : Int) :
    (Datum.int a).equals (.int b) = .no ↔ a ≠ b := by
  simp [Datum.equals]

@[simp] theorem Datum.like_ofText? (pattern : List Char) (text : Option (List Char)) :
    (Datum.ofText? text).like pattern = .yes ↔ ∃ value ∈ text, Like.holds pattern value = true := by
  cases text <;> simp [Datum.ofText?, Datum.like]

theorem Column.value_single {name column : List Char} {row : List (List Char × Datum)} {d : Datum}
    (h : row.lookup column = some d) : Column.value ⟨none, column⟩ [⟨name, row⟩] = d := by
  simp [Column.value, h]

theorem nodup_eraseDups : (items : List Datum) → items.eraseDups.Nodup
  | [] => .nil
  | d :: items => by
    rw [List.eraseDups_cons]
    refine List.nodup_cons.mpr ⟨fun again => ?_, nodup_eraseDups _⟩
    simpa using (List.mem_filter.mp (List.mem_eraseDups.mp again)).2
termination_by items => items.length
decreasing_by exact Nat.lt_succ_of_le (List.length_filter_le _ _)

/-- Putting in order by a key is the sorting of the keys. -/
theorem map_foldr_insertBy {α : Type} (key : α → Datum) (items : List α) :
    (items.foldr (insertBy key) []).map key =
      (items.map key).insertionSort fun a b => a.le b = true := by
  have inserted (item : α) (items : List α) : (insertBy key item items).map key =
      (items.map key).orderedInsert (fun a b => a.le b = true) (key item) := by
    induction items with
    | nil => rfl
    | cons other items ih =>
      rw [insertBy, List.map_cons, List.orderedInsert]
      split
      · rfl
      · rw [List.map_cons, ih]
  induction items with
  | nil => rfl
  | cons item items ih =>
    rw [List.foldr_cons, inserted, ih]
    rfl

end Sql

open Sql

section Columns

theorem beq_workColumn : ∀ column ∈ [uploaderColumn, spaceColumn, nameColumn, titleColumn],
    (column == workColumn) = false := by
  decide +kernel

theorem TagRow.lookup_work (row : TagRow) :
    row.columns.lookup workColumn = some (.int row.work) := by
  simp [columns]

theorem TagRow.lookup_space (row : TagRow) :
    row.columns.lookup spaceColumn = some (.ofText? row.space) := by
  simp [columns, List.lookup_cons, beq_workColumn spaceColumn (by simp)]

theorem TagRow.lookup_name (row : TagRow) :
    row.columns.lookup nameColumn = some (.text row.name) := by
  have other : (nameColumn == spaceColumn) = false := by decide +kernel
  simp [columns, List.lookup_cons, beq_workColumn nameColumn (by simp), other]

theorem TitleRow.lookup_work (row : TitleRow) :
    row.columns.lookup workColumn = some (.int row.work) := by
  simp [columns]

theorem TitleRow.lookup_title (row : TitleRow) :
    row.columns.lookup titleColumn = some (.text row.title) := by
  simp [columns, List.lookup_cons, beq_workColumn titleColumn (by simp)]

theorem MetadataRow.lookup_work (row : MetadataRow) :
    row.columns.lookup workColumn = some (.int row.work) := by
  simp [columns]

theorem MetadataRow.lookup_uploader (row : MetadataRow) :
    row.columns.lookup uploaderColumn = some (.ofText? row.uploader) := by
  simp [columns, List.lookup_cons, beq_workColumn uploaderColumn (by simp)]

end Columns

theorem Table.ofName?_name (t : Table) : Table.ofName? t.name.toList = some t := by
  cases t <;> decide +kernel

namespace Catalogue

theorem table_metadata (c : Catalogue) :
    c.table Table.metadata.name.toList = (c.metadata.getD .empty).rows.map (·.columns) := by
  rw [table, Table.ofName?_name]

theorem table_tags (c : Catalogue) :
    c.table Table.tags.name.toList = (c.tags.getD []).map (·.columns) := by
  rw [table, Table.ofName?_name]

theorem table_titles (c : Catalogue) :
    c.table Table.titles.name.toList = (c.titles.getD []).map (·.columns) := by
  rw [table, Table.ofName?_name]

end Catalogue

section Selections

variable {ρ : Type} {table : List Char → List (List (List Char × Datum))} {name : Table}
  {rows : List ρ} {columns : ρ → List (List Char × Datum)} {work : ρ → Int}

theorem mem_values_selection (rowsEq : table name.name.toList = rows.map columns)
    (works : ∀ row, (columns row).lookup workColumn = some (.int (work row))) (distinct : Bool)
    (condition : Condition Empty) (d : Datum) :
    d ∈ (selection distinct name condition).values table ↔
      ∃ row ∈ rows, (condition.map Empty.elim).holds [⟨name.name.toList, columns row⟩] = true ∧
        .int (work row) = d := by
  have bag : d ∈ (((table name.name.toList).map fun row => [Source.mk name.name.toList row]).filter
        (condition.map Empty.elim).holds).map (Column.value ⟨none, workColumn⟩) ↔
      ∃ row ∈ rows, (condition.map Empty.elim).holds [⟨name.name.toList, columns row⟩] = true ∧
        .int (work row) = d := by
    rw [rowsEq, List.map_map]
    simp only [List.mem_map, List.mem_filter, exists_exists_and_eq_and, Function.comp_apply,
      and_assoc, Column.value_single (works _)]
  unfold selection Selection.values
  cases distinct with
  | true => simpa [List.mem_eraseDups] using bag
  | false => simpa using bag

theorem nodup_values_selection (condition : Condition Empty) :
    ((selection true name condition).values table).Nodup := by
  unfold selection Selection.values
  exact nodup_eraseDups _

end Selections

theorem truth_likeLiteral {σ : Type} (f : σ → List Datum) (column : Column) (pattern : List Char)
    (sources : List Source) :
    ((likeLiteral column pattern).map f).truth sources = (column.value sources).like pattern :=
  rfl

theorem holds_nameLiterals {names : List (List Char)} {name : List Char} {row : TagRow} :
    (∃ l ∈ nameLiterals names, (l.map Empty.elim).truth [⟨name, row.columns⟩] = .yes) ↔
      ∃ p ∈ names, Like.holds p row.name = true := by
  simp only [nameLiterals, List.mem_map, exists_exists_and_eq_and, truth_likeLiteral,
    Column.value_single row.lookup_name, Datum.like, Truth.ofBool_eq_yes]

namespace SubQuery

theorem holds_tagged (space : List Char) (names : Option (List (List Char))) (name : List Char)
    (row : TagRow) :
    ((union (.tagged space names)).first.condition.map Empty.elim).holds [⟨name, row.columns⟩] =
        true ↔
      (∃ value ∈ row.space, Like.holds space value = true) ∧
        ∀ patterns ∈ names, ∃ p ∈ patterns, Like.holds p row.name = true := by
  have present : (Literal.map Empty.elim ⟨⟨none, spaceColumn⟩, true, .null⟩).truth
      [⟨name, row.columns⟩] = .yes ↔ row.space.isSome = true := by
    simp only [Literal.map, Literal.truth, Column.value_single row.lookup_space, Test.truth,
      if_true, Truth.not_eq_yes, Truth.ofBool_eq_no]
    cases row.space <;> simp [Datum.ofText?]
  rw [Condition.holds_map]
  simp only [union, selection, List.forall_mem_cons, List.forall_mem_map, List.mem_singleton,
    exists_eq_left, present, truth_likeLiteral, Column.value_single row.lookup_space,
    Datum.like_ofText?, holds_nameLiterals, Option.mem_toList]
  constructor
  · exact And.right
  · rintro ⟨⟨value, hvalue, like⟩, patterns⟩
    exact ⟨Option.isSome_of_mem hvalue, ⟨value, hvalue, like⟩, patterns⟩

variable (c : Catalogue)

theorem mem_values_union (q : SubQuery (List Char)) (d : Datum) :
    d ∈ q.union.values c.table ↔
      ∃ id, q.Finds (c.tags.getD []) (c.titles.getD []) id ∧ .int id = d := by
  cases q with
  | tagged space names =>
    have tagged := mem_values_selection c.table_tags TagRow.lookup_work true
      (union (.tagged space names)).first.condition d
    simp only [holds_tagged] at tagged
    refine tagged.trans ?_
    simp only [Finds]
    constructor
    · rintro ⟨row, hrow, fits, rfl⟩
      exact ⟨row.work, ⟨row, hrow, rfl, fits⟩, rfl⟩
    · rintro ⟨id, ⟨row, hrow, rfl, fits⟩, rfl⟩
      exact ⟨row, hrow, fits, rfl⟩
  | free names title =>
    have byTag := mem_values_selection c.table_tags TagRow.lookup_work false
      [nameLiterals names] d
    have byTitle := mem_values_selection c.table_titles TitleRow.lookup_work false
      [[likeLiteral ⟨none, titleColumn⟩ title]] d
    have either : d ∈ (union (.free names title)).values c.table ↔
        d ∈ (selection false .tags [nameLiterals names]).values c.table ∨
        d ∈ (selection false .titles [[likeLiteral ⟨none, titleColumn⟩ title]]).values c.table := by
      rw [← List.mem_append]
      exact List.mem_eraseDups
    simp only [Condition.holds_map, List.forall_mem_singleton, holds_nameLiterals] at byTag
    simp only [Condition.holds_map, List.mem_singleton, forall_eq, exists_eq_left,
      truth_likeLiteral, Column.value_single (TitleRow.lookup_title _), Datum.like,
      Truth.ofBool_eq_yes] at byTitle
    rw [either, byTag, byTitle]
    simp only [Finds]
    constructor
    · rintro (⟨row, hrow, fits, rfl⟩ | ⟨row, hrow, fits, rfl⟩)
      · exact ⟨row.work, .inl ⟨row, hrow, rfl, fits⟩, rfl⟩
      · exact ⟨row.work, .inr ⟨row, hrow, rfl, fits⟩, rfl⟩
    · rintro ⟨id, ⟨row, hrow, rfl, fits⟩ | ⟨row, hrow, rfl, fits⟩, rfl⟩
      · exact .inl ⟨row, hrow, fits, rfl⟩
      · exact .inr ⟨row, hrow, fits, rfl⟩

/-- No work comes twice: tags are asked for distinct works, and a union keeps one of each. -/
theorem nodup_values_union (q : SubQuery (List Char)) : (q.union.values c.table).Nodup := by
  cases q with
  | tagged space names => exact nodup_values_selection _
  | free names title => exact nodup_eraseDups _

theorem int_mem_values_union (q : SubQuery (List Char)) (id : Int) :
    .int id ∈ q.union.values c.table ↔ q.Finds (c.tags.getD []) (c.titles.getD []) id := by
  simp [mem_values_union]

end SubQuery

/-- A row of the metadata, beside the row that each join found for it. -/
def MetadataRow.beside (joins : Nat) (row : MetadataRow) : List Source :=
  ⟨Plan.metadataName, row.columns⟩ ::
    (List.range joins).map fun i => ⟨Select.joinName i, [(Plan.foundColumn, .int row.work)]⟩

theorem MetadataRow.beside_succ (joins : Nat) (row : MetadataRow) :
    row.beside (joins + 1) =
      row.beside joins ++ [⟨Select.joinName joins, [(Plan.foundColumn, .int row.work)]⟩] := by
  simp [beside, List.range_succ]

theorem joinName_injective {i j : Nat} (h : Select.joinName i = Select.joinName j) : i = j := by
  have digits : Nat.toDigits 10 i = Nat.toDigits 10 j := (List.cons.inj h).2
  have read := congrArg (fun cs => Nat.ofDigitChars 10 cs 0) digits
  simpa [Nat.ofDigitChars_toDigits] using read

theorem joinName_ne_metadataName (i : Nat) : Select.joinName i ≠ Plan.metadataName := by
  intro same
  have initial : Plan.metadataName.head? ≠ some 'i' :=
    of_literal (P := (·.head? ≠ some 'i')) (by decide)
  exact initial (congrArg List.head? same).symm

/-- Joins leave the columns of the metadata as they were. -/
theorem value_beside {row : MetadataRow} {column : List Char} {d : Datum}
    (h : row.columns.lookup column = some d) (joins : Nat) (others : List Source) :
    Column.value ⟨some Plan.metadataName, column⟩ (row.beside joins ++ others) = d := by
  simp [Column.value, MetadataRow.beside, h]

/-- The name of a join is new, so it stands for the row that was joined last. -/
theorem value_joined (row : MetadataRow) (joins : Nat) (d : Datum) :
    Column.value ⟨some (Select.joinName joins), Plan.foundColumn⟩
      (row.beside joins ++ [⟨Select.joinName joins, [(Plan.foundColumn, d)]⟩]) = d := by
  have new :
      (row.beside joins).filter (fun source => Select.joinName joins == source.name) = [] := by
    rw [List.filter_eq_nil_iff]
    intro source hsource same
    rcases List.mem_cons.mp hsource with rfl | joined
    · exact joinName_ne_metadataName joins (eq_of_beq same)
    · obtain ⟨i, hi, rfl⟩ := List.mem_map.mp joined
      have reached : joins = i := joinName_injective (eq_of_beq same)
      exact absurd (List.mem_range.mp hi) (by omega)
  simp [Column.value, List.filter_append, new]

theorem SubQuery.first_name (q : SubQuery (List Char)) :
    q.union.first.name = Plan.foundColumn := by
  cases q <;> rfl

theorem filterMap_of_nodup {values : List Datum} (nodup : values.Nodup) (d : Datum)
    {f : Datum → Option (List Source)} {found : List Source}
    (h : ∀ v ∈ values, f v = if v = d then some found else none) :
    values.filterMap f = if d ∈ values then [found] else [] := by
  induction values with
  | nil => rfl
  | cons v values ih =>
    obtain ⟨new, nodup⟩ := List.nodup_cons.mp nodup
    have others := ih nodup fun w hw => h w (List.mem_cons_of_mem v hw)
    have first := h v List.mem_cons_self
    by_cases here : v = d
    · subst here
      rw [if_neg new] at others
      rw [if_pos rfl] at first
      simp [first, others]
    · have elsewhere : d ∈ v :: values ↔ d ∈ values := by
        simp [Ne.symm here]
      rw [if_neg here] at first
      simp only [List.filterMap_cons, first, others, elsewhere]

/-- A join keeps the rows whose work is found, each once. -/
theorem extend_join (c : Catalogue) (q : SubQuery (List Char)) (index : Nat)
    (rows : List MetadataRow) :
    Joined.extend c.table (rows.map (·.beside index)) (q.join index) =
      (rows.filter fun row => .int row.work ∈ q.union.values c.table).map
        (·.beside (index + 1)) := by
  have one (row : MetadataRow) :
      (q.union.values c.table).filterMap ((q.join index).pair? (row.beside index)) =
        if .int row.work ∈ q.union.values c.table then [row.beside (index + 1)] else [] := by
    refine filterMap_of_nodup (q.nodup_values_union c) (.int row.work) fun value hvalue => ?_
    obtain ⟨id, -, rfl⟩ := (q.mem_values_union c value).mp hvalue
    simp only [SubQuery.join, Joined.pair?, q.first_name, value_joined,
      value_beside row.lookup_work]
    by_cases same : id = row.work
    · simp [same, row.beside_succ]
    · simp [same]
  have each : Joined.extend c.table (rows.map (·.beside index)) (q.join index) =
      rows.flatMap fun row =>
        if .int row.work ∈ q.union.values c.table then [row.beside (index + 1)] else [] := by
    unfold Joined.extend
    rw [List.flatMap_map]
    exact congrArg (rows.flatMap ·) (funext one)
  rw [each]
  clear each
  induction rows with
  | nil => rfl
  | cons row rows ih =>
    rw [List.flatMap_cons, ih, List.filter_cons]
    by_cases found : .int row.work ∈ q.union.values c.table
    · simp [found]
    · simp [found]

theorem foldl_extend_join (c : Catalogue) (qs : List (SubQuery (List Char))) (index : Nat)
    (rows : List MetadataRow) :
    ((qs.zipIdx index).map fun q => q.1.join q.2).foldl (Joined.extend c.table)
        (rows.map (·.beside index)) =
      (rows.filter fun row => qs.all fun q => .int row.work ∈ q.union.values c.table).map
        (·.beside (index + qs.length)) := by
  induction qs generalizing index rows with
  | nil => simp
  | cons q qs ih =>
    rw [List.zipIdx_cons, List.map_cons, List.foldl_cons, extend_join, ih, List.filter_filter]
    simp only [List.all_cons, List.length_cons, Bool.and_comm, Nat.add_assoc, Nat.add_comm 1]

theorem UploaderTest.holds_alternatives (c : Catalogue) (t : UploaderTest (List Char))
    (row : MetadataRow) (joins : Nat) :
    (∃ l ∈ t.alternatives, (l.map (·.values c.table)).truth (row.beside joins) = .yes) ↔
      t.Passes row.uploader := by
  have value := value_beside row.lookup_uploader joins []
  rw [List.append_nil] at value
  cases t with
  | like pattern => simp [alternatives, truth_likeLiteral, value, Passes]
  | unlike pattern =>
    simp only [alternatives, List.mem_cons, List.not_mem_nil, or_false, exists_eq_or_imp,
      exists_eq_left, Literal.map, Literal.truth, value, Test.truth, Passes]
    cases row.uploader <;> simp [Datum.ofText?, Datum.like]
  | present =>
    simp only [alternatives, List.mem_singleton, exists_eq_left, Literal.map, Literal.truth, value,
      Test.truth, Passes]
    cases row.uploader <;> simp [Datum.ofText?]
  | absent =>
    simp only [alternatives, List.mem_singleton, exists_eq_left, Literal.map, Literal.truth, value,
      Test.truth, Passes]
    cases row.uploader <;> simp [Datum.ofText?]

theorem SubQuery.holds_exclusion (c : Catalogue) (q : SubQuery (List Char)) (row : MetadataRow)
    (joins : Nat) :
    (q.exclusionLiteral.map (·.values c.table)).truth (row.beside joins) = .yes ↔
      ¬ q.Finds (c.tags.getD []) (c.titles.getD []) row.work := by
  have value := value_beside row.lookup_work joins []
  rw [List.append_nil] at value
  simp only [exclusionLiteral, Literal.map, Literal.truth, value, Test.truth, if_true,
    Truth.not_eq_yes, Datum.among, Truth.any_eq_no, List.forall_mem_map]
  rw [← q.int_mem_values_union c]
  constructor
  · intro differ found
    simpa using differ (.int row.work) found
  · intro absent d hd
    obtain ⟨id, -, rfl⟩ := (q.mem_values_union c d).mp hd
    rw [Datum.equals_int_eq_no]
    rintro rfl
    exact absent hd

namespace Plan

theorem holds_query (c : Catalogue) (p : Plan (List Char)) (row : MetadataRow) (joins : Nat) :
    (p.query.condition.map (·.values c.table)).holds (row.beside joins) = true ↔
      (∀ q ∈ p.excluded, ¬ q.Finds (c.tags.getD []) (c.titles.getD []) row.work) ∧
        ∀ t ∈ p.uploaders, t.Passes row.uploader := by
  rw [Condition.holds_map]
  simp only [query, List.forall_mem_append, List.forall_mem_map, List.mem_singleton,
    exists_eq_left, SubQuery.holds_exclusion, UploaderTest.holds_alternatives]

theorem works_in_order (rows : List MetadataRow) (joins : Nat) :
    ((rows.map (·.beside joins)).foldr
        (insertBy (Column.value ⟨some metadataName, workColumn⟩)) []).map
          (Column.value ⟨some metadataName, workColumn⟩) =
      ((rows.map (·.work)).insertionSort (· ≤ ·)).map .int := by
  have works : (rows.map (·.beside joins)).map (Column.value ⟨some metadataName, workColumn⟩) =
      (rows.map (·.work)).map .int := by
    rw [List.map_map, List.map_map]
    refine List.map_congr_left fun row _ => ?_
    simpa using value_beside row.lookup_work joins []
  have sorted := List.map_insertionSort (· ≤ ·) (fun a b => Datum.le a b = true) .int
    (rows.map (·.work)) fun a _ b _ => by simp [Datum.le]
  rw [map_foldr_insertBy, works, sorted]

/-- The query of a plan gives the works of the rows that fit, put in order. -/
theorem values_query (c : Catalogue) (p : Plan (List Char)) :
    ∃ rows : List MetadataRow, rows.Sublist (c.metadata.getD .empty).rows ∧
      (∀ row, row ∈ rows ↔ row ∈ (c.metadata.getD .empty).rows ∧
        p.Accepts (c.tags.getD []) (c.titles.getD []) row) ∧
      p.query.values c.table = ((rows.map (·.work)).insertionSort (· ≤ ·)).map .int := by
  let joins := p.joined.length
  let found (row : MetadataRow) : Bool :=
    p.joined.all fun q => .int row.work ∈ q.union.values c.table
  let fits (row : MetadataRow) : Bool :=
    (p.query.condition.map (·.values c.table)).holds (row.beside joins)
  have joined : p.query.joins.foldl (Joined.extend c.table)
      ((c.table p.query.table).map fun row => [⟨p.query.name, row⟩]) =
        ((c.metadata.getD .empty).rows.filter found).map (·.beside joins) := by
    have start : (c.table p.query.table).map (fun row => [⟨p.query.name, row⟩]) =
        (c.metadata.getD .empty).rows.map (·.beside 0) := by
      rw [query, c.table_metadata, List.map_map]
      rfl
    have all := foldl_extend_join c p.joined 0 (c.metadata.getD .empty).rows
    rw [Nat.zero_add] at all
    rw [start]
    exact all
  have filtered : (((c.metadata.getD .empty).rows.filter found).map (·.beside joins)).filter
      (p.query.condition.map (·.values c.table)).holds =
        (((c.metadata.getD .empty).rows.filter found).filter fits).map (·.beside joins) :=
    List.filter_map
  refine ⟨((c.metadata.getD .empty).rows.filter found).filter fits,
    List.filter_sublist.trans List.filter_sublist, fun row => ?_, ?_⟩
  · have joinedIff : found row = true ↔
        ∀ q ∈ p.joined, q.Finds (c.tags.getD []) (c.titles.getD []) row.work := by
      simp [found, SubQuery.int_mem_values_union]
    have fitsIff := holds_query c p row joins
    rw [List.mem_filter, List.mem_filter, joinedIff, fitsIff, and_assoc]
    exact and_congr_right' ⟨fun h => ⟨h.1, h.2.1, h.2.2⟩,
      fun h => ⟨h.joined, h.excluded, h.uploaders⟩⟩
  · unfold Query.values
    simp only [joined, filtered]
    exact works_in_order _ joins

end Plan

/-- The text of a plan asks for the works that the plan accepts, each once, in ascending order. -/
theorem Catalogue.answer?_text (c : Catalogue) {p : Plan (List Char)} (h : p.Worded) :
    ∃ works, c.answer? p.statement.text p.params = some works ∧ works.Pairwise (· < ·) ∧
      ∀ id, id ∈ works ↔ ∃ row ∈ (c.metadata.getD .empty).rows, row.work = id ∧
        p.Accepts (c.tags.getD []) (c.titles.getD []) row := by
  obtain ⟨rows, part, accepted, values⟩ := p.values_query c
  have nodup : (rows.map (·.work)).Nodup := by
    have ascending : (c.metadata.getD .empty).rows.Pairwise (·.work ≠ ·.work) :=
      (c.metadata.getD .empty).ascending.imp Int.ne_of_lt
    exact List.pairwise_map.mpr (ascending.sublist part)
  refine ⟨(rows.map (·.work)).insertionSort (· ≤ ·), ?_, ?_, fun id => ?_⟩
  · rw [answer?, Plan.query?_text h, Option.map_some, values]
    simp [List.filterMap_map, Datum.int?]
  · have sorted := List.pairwise_insertionSort (· ≤ ·) (rows.map (·.work))
    have distinct := (List.perm_insertionSort (· ≤ ·) (rows.map (·.work))).nodup_iff.mpr nodup
    exact sorted.imp₂ (fun _ _ => lt_of_le_of_ne) distinct
  · rw [List.mem_insertionSort, List.mem_map]
    simp only [accepted]
    constructor
    · rintro ⟨row, ⟨hrow, fits⟩, hid⟩
      exact ⟨row, hrow, hid, fits⟩
    · rintro ⟨row, hrow, hid, fits⟩
      exact ⟨row, ⟨hrow, fits⟩, hid⟩

end TagQuery
