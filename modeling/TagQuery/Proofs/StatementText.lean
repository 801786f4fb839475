import TagQuery.Catalogue.Answer
import TagQuery.Plan
import TagQuery.Proofs.StatementReading

/-! The text of a plan is put together from words, placeholders and the names of its joins, and it
is read from its characters alone. Main statement: with the patterns of the plan bound to its
placeholders the text of a plan reads back as the query of the plan, part by part, if every list of
names has one. -/
namespace TagQuery.Sql

theorem spells_name {chars : List Char} (h : Lexes chars [.name chars]) :
    Spells (String.ofList chars).toList [] [.name (String.ofList chars).toList] :=
  of_literal (P := fun text => Spells text [] [.name text])
    ⟨[.name chars], h, fun _ _ _ => rfl⟩

def likeItems (column : List Item) (pattern : List Char) : List Item :=
  column ++ [.key .LIKE, .bound pattern, .key .ESCAPE, .quoted ['\\']]

theorem spells_likeText {column : String} {items : List Item} (h : Spells column.toList [] items)
    (pattern : List Char) : Spells (likeText column) [pattern] (likeItems items pattern) := by
  have comparison : Spells " LIKE ? ESCAPE '\\'".toList [pattern]
      [.key .LIKE, .bound pattern, .key .ESCAPE, .quoted ['\\']] :=
    .literal [.key .LIKE, .placeholder, .key .ESCAPE, .quoted ['\\']] rfl fun _ _ _ => rfl
  exact h.after comparison (.inr (opens_literal rfl))

end TagQuery.Sql

namespace TagQuery

open Sql

def likeLiteral {σ : Type} (column : Column) (pattern : List Char) : Literal σ :=
  ⟨column, false, .like pattern⟩

def nameItems (pattern : List Char) : List Item :=
  likeItems [.name nameColumn] pattern

theorem spells_nameTest (pattern : List Char) : Spells nameTest [pattern] (nameItems pattern) :=
  spells_likeText (spells_name (by rfl)) pattern

theorem spells_spaceTest (pattern : List Char) :
    Spells spaceTest [pattern] (likeItems [.name spaceColumn] pattern) :=
  spells_likeText (spells_name (by rfl)) pattern

theorem spells_titleTest (pattern : List Char) :
    Spells titleTest [pattern] (likeItems [.name titleColumn] pattern) :=
  spells_likeText (spells_name (by rfl)) pattern

theorem spells_andText : Spells andText [] [.key .AND] :=
  .literal [.key .AND] rfl fun _ _ _ => rfl

theorem spells_namesText (names : List (List Char)) :
    Spells (namesText names) names [.group (spread .OR (names.map nameItems))] := by
  have orSpells : Spells orText [] [.key .OR] :=
    .literal [.key .OR] rfl fun _ _ _ => rfl
  have tests := orSpells.separated (literal_ne_nil (by decide)) (opens_literal rfl)
    (closes_literal rfl) names fun name _ => spells_nameTest name
  rw [List.flatMap_singleton'] at tests
  simpa [namesText] using tests.group

def selectItems (distinct : Bool) (table : Table) : List Item :=
  .key .SELECT :: (if distinct then [.key .DISTINCT] else [])
    ++ [.name workColumn, .key .AS, .name Plan.foundColumn, .key .FROM, .name table.name.toList]

def selection (distinct : Bool) (table : Table) (condition : Condition Empty) : Selection :=
  ⟨distinct, ⟨none, workColumn⟩, Plan.foundColumn, table.name.toList, condition⟩

theorem read?_selectItems (distinct : Bool) (table : Table) {items : List Item}
    {condition : Condition Empty} (hw : lacks .WHERE items = true)
    (h : condition? (fun _ => none) items = some condition) :
    Selection.read? (selectItems distinct table ++ .key .WHERE :: items) =
      some (selection distinct table condition) := by
  have parts : cut .WHERE (selectItems distinct table ++ .key .WHERE :: items) =
      [selectItems distinct table, items] := by
    rw [cut_append (by cases distinct <;> rfl), cut_of_lacks hw]
  rw [Selection.read?, parts]
  cases distinct <;> simp [selectItems, h, selection]

/-- The items of the condition that a tag has a namespace, and one like the pattern. -/
def spaceItems (space : List Char) : List Item :=
  [.name spaceColumn, .key .IS, .key .NOT, .key .NULL, .key .AND]
    ++ likeItems [.name spaceColumn] space

theorem spells_tagged (space : List Char) :
    Spells (taggedHead.tail ++ andText ++ spaceTest) [space]
      (selectItems true .tags ++ .key .WHERE :: spaceItems space) := by
  have head : Spells taggedHead.tail [] (selectItems true .tags ++ [.key .WHERE,
      .name spaceColumn, .key .IS, .key .NOT, .key .NULL]) :=
    .literal_tail [.key .SELECT, .key .DISTINCT, .name workColumn, .key .AS,
      .name Plan.foundColumn, .key .FROM, .name Table.tags.name.toList, .key .WHERE,
      .name spaceColumn, .key .IS, .key .NOT, .key .NULL] (by decide +kernel) fun _ _ _ => rfl
  exact (head.before spells_andText (.inr (opens_literal rfl))).after (spells_spaceTest space)
    (.inl (closes_append_literal (by decide) rfl _))

theorem spells_freeHead : Spells freeHead.tail [] (selectItems false .tags ++ [.key .WHERE]) :=
  .literal_tail [.key .SELECT, .name workColumn, .key .AS, .name Plan.foundColumn, .key .FROM,
    .name Table.tags.name.toList, .key .WHERE] (by decide +kernel) fun _ _ _ => rfl

theorem spells_titleHead :
    Spells titleHead [] (.key .UNION :: selectItems false .titles ++ [.key .WHERE]) :=
  .literal [.key .UNION, .key .SELECT, .name workColumn, .key .AS, .name Plan.foundColumn,
    .key .FROM, .name Table.titles.name.toList, .key .WHERE] (by decide +kernel) fun _ _ _ => rfl

def nameLiterals (names : List (List Char)) : List (Literal Empty) :=
  names.map (likeLiteral ⟨none, nameColumn⟩)

def namesItems (names : List (List Char)) : List Item :=
  [.group (spread .OR (names.map nameItems))]

namespace SubQuery

/-- The items of a sub-query, which stand in a group of their own. -/
def items : SubQuery (List Char) → List Item
  | .tagged space none => selectItems true .tags ++ .key .WHERE :: spaceItems space
  | .tagged space (some names) =>
    selectItems true .tags ++ .key .WHERE :: (spaceItems space ++ .key .AND :: namesItems names)
  | .free names title =>
    selectItems false .tags ++ .key .WHERE :: namesItems names ++ .key .UNION ::
      (selectItems false .titles ++ .key .WHERE :: likeItems [.name titleColumn] title)

theorem spells_sql (q : SubQuery (List Char)) : Spells q.sql q.params [.group q.items] := by
  have tagged : taggedHead = '(' :: taggedHead.tail := literal_eq_cons
  have free : freeHead = '(' :: freeHead.tail := literal_eq_cons
  cases q with
  | tagged space names =>
    cases names with
    | none =>
      rw [sql, tagged]
      exact (spells_tagged space).group
    | some names =>
      have space := (spells_tagged space).before spells_andText (.inr (opens_literal rfl))
      rw [sql, tagged]
      exact (space.append (spells_namesText names) (.inr rfl)).group
  | free names title =>
    have byTag := spells_freeHead.after (spells_namesText names) (.inr rfl)
    have byTitle := byTag.before spells_titleHead (.inr (opens_literal rfl))
    rw [sql, free]
    exact (byTitle.append (spells_titleTest title)
      (.inl (closes_append_literal (by decide) rfl _))).group

/-- What the text of a sub-query asks for. -/
def union : SubQuery (List Char) → Union
  | .tagged space names =>
    ⟨selection true .tags ([⟨⟨none, spaceColumn⟩, true, .null⟩]
      :: [likeLiteral ⟨none, spaceColumn⟩ space]
      :: names.toList.map nameLiterals), []⟩
  | .free names title =>
    ⟨selection false .tags [nameLiterals names],
      [(false, selection false .titles [[likeLiteral ⟨none, titleColumn⟩ title]])]⟩

/-- There is a name wherever names are tested. -/
def Worded {α : Type} : SubQuery α → Prop
  | .tagged _ names => names ≠ some []
  | .free names _ => names ≠ []

theorem alternatives?_names {names : List (List Char)} (ne : names ≠ []) :
    alternatives? (fun _ => none) (namesItems names) = some (nameLiterals names) := by
  rw [namesItems, alternatives?, cut_spread]
  · exact mapM_map names fun name _ => rfl
  · simpa using ne
  · intro part hpart
    obtain ⟨name, -, rfl⟩ := List.mem_map.mp hpart
    rfl

theorem read?_items {q : SubQuery (List Char)} (h : q.Worded) :
    Union.read? q.items = some q.union := by
  cases q with
  | tagged space names =>
    cases names with
    | none => rfl
    | some names =>
      have ne : names ≠ [] := fun none => h (congrArg some none)
      have tests : condition? (fun _ => none) (spaceItems space ++ .key .AND :: namesItems names) =
          some (union (.tagged space (some names))).first.condition := by
        have parts : cut .AND (spaceItems space ++ .key .AND :: namesItems names) =
            [[.name spaceColumn, .key .IS, .key .NOT, .key .NULL],
              likeItems [.name spaceColumn] space, namesItems names] := rfl
        rw [condition?, parts, List.mapM_cons, List.mapM_cons, List.mapM_cons,
          alternatives?_names ne]
        rfl
      have first := read?_selectItems true .tags rfl tests
      have parts : cut .UNION (items (.tagged space (some names))) =
          [selectItems true .tags ++ .key .WHERE ::
            (spaceItems space ++ .key .AND :: namesItems names)] := rfl
      rw [Union.read?, parts]
      simp only [first]
      rfl
  | free names title =>
    have tests : condition? (fun _ => none) (namesItems names) =
        some [nameLiterals names] := by
      have parts : cut .AND (namesItems names) = [namesItems names] := rfl
      rw [condition?, parts, List.mapM_cons, alternatives?_names h]
      rfl
    have byTag := read?_selectItems false .tags rfl tests
    have parts : cut .UNION (items (.free names title)) =
        [selectItems false .tags ++ .key .WHERE :: namesItems names,
          selectItems false .titles ++ .key .WHERE :: likeItems [.name titleColumn] title] := rfl
    rw [Union.read?, parts]
    simp only [byTag]
    rfl

end SubQuery

theorem spells_joinName (index : Nat) :
    Spells (Select.joinName index) [] [.name (Select.joinName index)] := by
  have word : ∀ c ∈ Select.joinName index, isWordChar c = true := by
    intro c hc
    rcases List.mem_cons.mp hc with rfl | digit
    · decide
    · have isDigit : c.isDigit = true := Nat.isDigit_of_mem_toDigits (by decide) (by decide) digit
      simp [isWordChar, Char.isAlphanum, isDigit]
  have free : Keyword.spellings.find? (·.1 == Select.joinName index) = none := by
    have initials : ∀ entry ∈ Keyword.spellings, entry.1.head? ≠ some 'i' := by decide
    rw [List.find?_eq_none]
    intro entry hentry same
    exact initials entry hentry (by rw [eq_of_beq same]; rfl)
  have name : Token.ofWord (Select.joinName index) = .name (Select.joinName index) := by
    rw [Token.ofWord, free]
  exact ⟨[.name (Select.joinName index)], name ▸ lexes_word word, fun _ _ _ => rfl⟩

namespace Plan

def metadataName : List Char := "meta".toList

def metadataItems (column : List Char) : List Item :=
  [.name metadataName, .mark '.', .name column]

theorem spells_metadataWork : Spells metadataWork [] (metadataItems workColumn) :=
  .literal [.name metadataName, .mark '.', .name workColumn] (by decide +kernel) fun _ _ _ => rfl

def joinItems (q : SubQuery (List Char)) (index : Nat) : List Item :=
  [.key .JOIN, .group q.items, .name (Select.joinName index), .key .ON,
    .name (Select.joinName index), .mark '.', .name foundColumn, .mark '=']
    ++ metadataItems workColumn

theorem spells_joinText (q : SubQuery (List Char)) (index : Nat) :
    Spells (Select.joinText ⟨q.fragment, foundColumn, metadataWork⟩ index) q.params
      (.key .INNER :: joinItems q index) := by
  have head : Spells Select.joinHead [] [.key .INNER, .key .JOIN] :=
    .literal [.key .INNER, .key .JOIN] rfl fun _ _ _ => rfl
  have blank : Spells [' '] [] [] := ⟨[], rfl, fun _ _ _ => rfl⟩
  have on : Spells Select.onText [] [.key .ON] :=
    .literal [.key .ON] rfl fun _ _ _ => rfl
  have point : Spells ['.'] [] [.mark '.'] := ⟨[.mark '.'], rfl, fun _ _ _ => rfl⟩
  have column : Spells ('.' :: foundColumn) [] [.mark '.', .name foundColumn] :=
    point.after (spells_name rfl) (.inl rfl)
  have equals : Spells Select.equalsText [] [.mark '='] :=
    .literal [.mark '='] rfl fun _ _ _ => rfl
  have found := head.after q.spells_sql (.inl (closes_literal rfl))
  have named := (found.before (blank.after (spells_joinName index) (.inl rfl))
    (.inr rfl)).before on (.inr (opens_literal rfl))
  have left := (named.before (spells_joinName index)
    (.inl (closes_append_literal (by decide) rfl _))).before column (.inr rfl)
  exact (left.before equals (.inr (opens_literal rfl))).before spells_metadataWork
    (.inl (closes_append_literal (by decide) rfl _))

end Plan

/-- The join of a sub-query, of which there were so many before. -/
def SubQuery.join (q : SubQuery (List Char)) (index : Nat) : Joined :=
  ⟨q.union, Select.joinName index, ⟨some (Select.joinName index), Plan.foundColumn⟩,
    ⟨some Plan.metadataName, workColumn⟩⟩

def SubQuery.exclusionItems (q : SubQuery (List Char)) : List Item :=
  Plan.metadataItems workColumn ++ [.key .NOT, .key .IN, .group q.items]

def SubQuery.exclusionLiteral (q : SubQuery (List Char)) : Literal Union :=
  ⟨⟨some Plan.metadataName, workColumn⟩, true, .among q.union⟩

theorem SubQuery.spells_exclusion (q : SubQuery (List Char)) :
    Spells q.exclusion.sql q.params [.group q.exclusionItems] := by
  have opening : exclusionHead = '(' :: exclusionHead.tail := literal_eq_cons
  have head : Spells exclusionHead.tail []
      (Plan.metadataItems workColumn ++ [.key .NOT, .key .IN]) :=
    .literal_tail [.name Plan.metadataName, .mark '.', .name workColumn, .key .NOT, .key .IN]
      (by decide +kernel) fun _ _ _ => rfl
  have closing : closes exclusionHead.tail = true :=
    of_literal (P := fun text => closes text.tail = true) rfl
  have text : q.exclusion.sql = '(' :: (exclusionHead.tail ++ q.sql ++ [')']) :=
    congrArg (· ++ q.sql ++ [')']) opening
  rw [text]
  exact (head.after q.spells_sql (.inl closing)).group

theorem SubQuery.alternatives?_exclusion {q : SubQuery (List Char)} (h : q.Worded) :
    alternatives? Union.read? [.group q.exclusionItems] = some [q.exclusionLiteral] := by
  have one : cut .OR q.exclusionItems = [q.exclusionItems] := rfl
  have literal : literal? Union.read? q.exclusionItems = some q.exclusionLiteral := by
    change (Union.read? q.items).map _ = _
    rw [read?_items h]
    rfl
  rw [alternatives?, one, List.mapM_cons, literal]
  rfl

namespace UploaderTest

def items : UploaderTest (List Char) → List Item
  | .like pattern => likeItems (Plan.metadataItems uploaderColumn) pattern
  | .unlike pattern =>
    [.group (Plan.metadataItems uploaderColumn ++ [.key .IS, .key .NULL, .key .OR]
      ++ Plan.metadataItems uploaderColumn
      ++ [.key .NOT, .key .LIKE, .bound pattern, .key .ESCAPE, .quoted ['\\']])]
  | .present => Plan.metadataItems uploaderColumn ++ [.key .IS, .key .NOT, .key .NULL]
  | .absent => Plan.metadataItems uploaderColumn ++ [.key .IS, .key .NULL]

/-- What the text of a condition asks for. -/
def alternatives : UploaderTest (List Char) → List (Literal Union)
  | .like pattern => [likeLiteral ⟨some Plan.metadataName, uploaderColumn⟩ pattern]
  | .unlike pattern =>
    [⟨⟨some Plan.metadataName, uploaderColumn⟩, false, .null⟩,
      ⟨⟨some Plan.metadataName, uploaderColumn⟩, true, .like pattern⟩]
  | .present => [⟨⟨some Plan.metadataName, uploaderColumn⟩, true, .null⟩]
  | .absent => [⟨⟨some Plan.metadataName, uploaderColumn⟩, false, .null⟩]

theorem spells_sql (t : UploaderTest (List Char)) : Spells t.sql t.params t.items := by
  cases t with
  | like pattern =>
    exact spells_likeText (.literal [.name Plan.metadataName, .mark '.', .name uploaderColumn]
      (by decide +kernel) fun _ _ _ => rfl) pattern
  | unlike pattern =>
    rw [sql]
    exact .literal [.mark '(', .name Plan.metadataName, .mark '.', .name uploaderColumn, .key .IS,
      .key .NULL, .key .OR, .name Plan.metadataName, .mark '.', .name uploaderColumn, .key .NOT,
      .key .LIKE, .placeholder, .key .ESCAPE, .quoted ['\\'], .mark ')'] (by decide +kernel)
      fun _ _ _ => rfl
  | present =>
    exact .literal [.name Plan.metadataName, .mark '.', .name uploaderColumn, .key .IS, .key .NOT,
      .key .NULL] (by decide +kernel) fun _ _ _ => rfl
  | absent =>
    exact .literal [.name Plan.metadataName, .mark '.', .name uploaderColumn, .key .IS, .key .NULL]
      (by decide +kernel) fun _ _ _ => rfl

theorem alternatives?_items (t : UploaderTest (List Char)) :
    alternatives? Union.read? t.items = some t.alternatives := by
  cases t <;> rfl

end UploaderTest

namespace Plan

def sourceItems (p : Plan (List Char)) : List Item :=
  (.key .SELECT :: metadataItems workColumn
    ++ [.key .FROM, .name Table.metadata.name.toList, .name metadataName])
    ++ p.joined.zipIdx.flatMap fun j => .key .INNER :: joinItems j.1 j.2

def conditionItems (p : Plan (List Char)) : List (List Item) :=
  p.excluded.map (fun q => [.group q.exclusionItems]) ++ p.uploaders.map (·.items)

def whereItems : List (List Item) → List Item
  | [] => []
  | parts => .key .WHERE :: spread .AND parts

def items (p : Plan (List Char)) : List Item :=
  p.sourceItems ++ whereItems p.conditionItems
    ++ .key .ORDER :: .key .BY :: metadataItems workColumn

theorem spells_joins (p : Plan (List Char)) :
    Spells (p.select.joins.zipIdx.flatMap fun j => Select.joinText j.1 j.2)
        (p.joined.flatMap (·.params))
        (p.joined.zipIdx.flatMap fun j => .key .INNER :: joinItems j.1 j.2) ∧
      opens (p.select.joins.zipIdx.flatMap fun j => Select.joinText j.1 j.2) = true := by
  have params : p.joined.zipIdx.flatMap (·.1.params) = p.joined.flatMap (·.params) := by
    rw [← List.flatMap_map Prod.fst, List.zipIdx_map_fst]
  have opening (q : SubQuery (List Char)) (index : Nat) :
      opens (Select.joinText ⟨q.fragment, foundColumn, metadataWork⟩ index) = true := by
    simp only [Select.joinText, List.append_assoc]
    exact opens_literal_append (by decide) rfl _
  have joins := Spells.flatMap p.joined.zipIdx (fun j _ => spells_joinText j.1 j.2)
    fun j _ => opening j.1 j.2
  rw [params] at joins
  rw [select, List.zipIdx_map, List.flatMap_map]
  exact joins

theorem whereText_of_ne {fs : List Fragment} (ne : fs ≠ []) :
    Select.whereText fs = Select.whereHead ++ separated Select.whereAnd (fs.map (·.sql)) := by
  cases fs with
  | nil => exact absurd rfl ne
  | cons f fs => rfl

theorem whereItems_of_ne {parts : List (List Item)} (ne : parts ≠ []) :
    whereItems parts = .key .WHERE :: spread .AND parts := by
  cases parts with
  | nil => exact absurd rfl ne
  | cons part parts => rfl

theorem spells_conditions (p : Plan (List Char)) :
    Spells (Select.whereText p.select.conditions)
        (p.excluded.flatMap (·.params) ++ p.uploaders.flatMap (·.params))
        (whereItems p.conditionItems) ∧
      opens (Select.whereText p.select.conditions) = true := by
  have head : Spells Select.whereHead [] [.key .WHERE] :=
    .literal [.key .WHERE] rfl fun _ _ _ => rfl
  have both : Spells Select.whereAnd [] [.key .AND] :=
    .literal [.key .AND] rfl fun _ _ _ => rfl
  -- The two kinds of conditions as one list of texts with their parameters and items.
  let parts : List (List Char × List (List Char) × List Item) :=
    p.excluded.map (fun q => (q.exclusion.sql, q.params, [.group q.exclusionItems]))
      ++ p.uploaders.map fun t => (t.sql, t.params, t.items)
  have spelled (part) (hpart : part ∈ parts) : Spells part.1 part.2.1 part.2.2 := by
    rcases List.mem_append.mp hpart with excluded | uploader
    · obtain ⟨q, -, rfl⟩ := List.mem_map.mp excluded
      exact q.spells_exclusion
    · obtain ⟨t, -, rfl⟩ := List.mem_map.mp uploader
      exact t.spells_sql
  have conditions := both.separated (literal_ne_nil (by decide)) (opens_literal rfl)
    (closes_literal rfl) parts spelled
  have texts : parts.map (·.1) = p.select.conditions.map (·.sql) := by
    simp [parts, select, UploaderTest.fragment, Function.comp_def]
  have params : parts.flatMap (·.2.1) =
      p.excluded.flatMap (·.params) ++ p.uploaders.flatMap (·.params) := by
    simp [parts, List.flatMap_map]
  have items : parts.map (·.2.2) = p.conditionItems := by
    simp [parts, conditionItems, Function.comp_def]
  rw [← params]
  by_cases none : parts = []
  · rw [none] at texts items ⊢
    rw [List.map_eq_nil_iff.mp texts.symm, ← items]
    exact ⟨.nil, rfl⟩
  · have ne : p.select.conditions ≠ [] := fun empty =>
      none (List.map_eq_nil_iff.mp (texts.trans (congrArg _ empty)))
    have ne' : p.conditionItems ≠ [] := fun empty =>
      none (List.map_eq_nil_iff.mp (items.trans empty))
    rw [whereText_of_ne ne, whereItems_of_ne ne', ← texts, ← items]
    exact ⟨head.after conditions (.inl (closes_literal rfl)),
      opens_literal_append (by decide) rfl _⟩

theorem spells_text (p : Plan (List Char)) : Spells p.statement.text p.params p.items := by
  have head : Spells metadataHead [] (.key .SELECT :: metadataItems workColumn
      ++ [.key .FROM, .name Table.metadata.name.toList, .name metadataName]) :=
    .literal [.key .SELECT, .name metadataName, .mark '.', .name workColumn, .key .FROM,
      .name Table.metadata.name.toList, .name metadataName] (by decide +kernel) fun _ _ _ => rfl
  have orderHead : Spells Select.orderHead [] [.key .ORDER, .key .BY] :=
    .literal [.key .ORDER, .key .BY] rfl fun _ _ _ => rfl
  have order : Spells (Select.orderText (some metadataWork)) []
      (.key .ORDER :: .key .BY :: metadataItems workColumn) :=
    orderHead.after spells_metadataWork (.inl (closes_literal rfl))
  obtain ⟨joins, joinsApart⟩ := p.spells_joins
  obtain ⟨conditions, conditionsApart⟩ := p.spells_conditions
  have sources := head.after joins (.inr joinsApart)
  have filtered := sources.append conditions (.inr conditionsApart)
  have orderApart : opens (Select.orderText (some metadataWork)) = true :=
    opens_literal_append (by decide) rfl _
  rw [← List.append_assoc] at filtered
  exact filtered.before order (.inr orderApart)

/-- What the text of a plan asks for. -/
def query (p : Plan (List Char)) : Query where
  column := ⟨some metadataName, workColumn⟩
  table := Table.metadata.name.toList
  name := metadataName
  joins := p.joined.zipIdx.map fun j => j.1.join j.2
  condition := p.excluded.map (fun q => [q.exclusionLiteral]) ++ p.uploaders.map (·.alternatives)
  order := some ⟨some metadataName, workColumn⟩

def Worded {α : Type} (p : Plan α) : Prop :=
  ∀ q ∈ p.joined ++ p.excluded, q.Worded

theorem lacks_sourceItems (p : Plan (List Char)) {k : Keyword} (hk : k = .ORDER ∨ k = .WHERE) :
    lacks k p.sourceItems = true := by
  rcases hk with rfl | rfl
  · exact lacks_append rfl (lacks_flatMap fun _ _ => rfl)
  · exact lacks_append rfl (lacks_flatMap fun _ _ => rfl)

theorem lacks_conditionItems (p : Plan (List Char)) {k : Keyword}
    (hk : k = .ORDER ∨ k = .WHERE ∨ k = .AND) : ∀ part ∈ p.conditionItems, lacks k part = true := by
  intro part hpart
  rcases List.mem_append.mp hpart with excluded | uploader
  · obtain ⟨q, -, rfl⟩ := List.mem_map.mp excluded
    rfl
  · obtain ⟨t, -, rfl⟩ := List.mem_map.mp uploader
    rcases hk with rfl | rfl | rfl <;> cases t <;> rfl

theorem readSources?_items {p : Plan (List Char)} (h : ∀ q ∈ p.joined, q.Worded)
    (condition : Condition Union) (order : Option Column) :
    Query.readSources? p.sourceItems condition order =
      some { p.query with condition, order } := by
  have parts : cut .INNER p.sourceItems =
      (.key .SELECT :: metadataItems workColumn
        ++ [.key .FROM, .name Table.metadata.name.toList, .name metadataName])
      :: p.joined.zipIdx.map fun j => joinItems j.1 j.2 := by
    have joins : (p.joined.zipIdx.flatMap fun j => .key .INNER :: joinItems j.1 j.2) =
        (p.joined.zipIdx.map fun j => joinItems j.1 j.2).flatMap (.key .INNER :: ·) := by
      rw [List.flatMap_map]
    rw [sourceItems, joins]
    refine cut_flatMap (List.forall_mem_cons.mpr ⟨rfl, fun part hpart => ?_⟩)
    obtain ⟨j, -, rfl⟩ := List.mem_map.mp hpart
    rfl
  have joins : (p.joined.zipIdx.map fun j => joinItems j.1 j.2).mapM Joined.read? =
      some p.query.joins := by
    refine mapM_map p.joined.zipIdx fun j hj => ?_
    have worded : j.1.Worded := h j.1 (List.fst_mem_of_mem_zipIdx hj)
    change (Union.read? j.1.items).map _ = _
    rw [SubQuery.read?_items worded]
    rfl
  rw [Query.readSources?, parts]
  simp [metadataItems, joins, query]

theorem condition?_items {p : Plan (List Char)} (h : ∀ q ∈ p.excluded, q.Worded)
    (ne : p.conditionItems ≠ []) :
    condition? Union.read? (spread .AND p.conditionItems) = some p.query.condition := by
  have excluded := mapM_map p.excluded fun q hq => SubQuery.alternatives?_exclusion (h q hq)
  have uploaders := mapM_map p.uploaders fun t _ => t.alternatives?_items
  rw [condition?, cut_spread ne (p.lacks_conditionItems (.inr (.inr rfl))), conditionItems,
    List.mapM_append, excluded, uploaders]
  rfl

theorem query?_text {p : Plan (List Char)} (h : p.Worded) :
    query? p.statement.text p.params = some p.query := by
  have joined : ∀ q ∈ p.joined, q.Worded := fun q hq => h q (List.mem_append_left _ hq)
  have excluded : ∀ q ∈ p.excluded, q.Worded := fun q hq => h q (List.mem_append_right _ hq)
  have body : Query.readBody? (p.sourceItems ++ whereItems p.conditionItems)
      (some ⟨some metadataName, workColumn⟩) = some p.query := by
    by_cases none : p.conditionItems = []
    · rw [none, whereItems, List.append_nil, Query.readBody?,
        cut_of_lacks (p.lacks_sourceItems (.inr rfl))]
      have conditions : p.query.condition = [] := by
        obtain ⟨excluded, uploaders⟩ := List.append_eq_nil_iff.mp none
        simp only [query, List.map_eq_nil_iff.mp excluded, List.map_eq_nil_iff.mp uploaders]
        rfl
      simp only [readSources?_items joined, ← conditions]
      rfl
    · rw [whereItems_of_ne none, Query.readBody?, cut_append (p.lacks_sourceItems (.inr rfl)),
        cut_of_lacks (lacks_spread rfl (p.lacks_conditionItems (.inr (.inl rfl))))]
      simp only [condition?_items excluded none, readSources?_items joined]
      rfl
  have whereLacks : lacks .ORDER (whereItems p.conditionItems) = true := by
    by_cases none : p.conditionItems = []
    · rw [none]
      rfl
    · rw [whereItems_of_ne none]
      exact lacks_spread rfl (p.lacks_conditionItems (.inl rfl))
  have parts : cut .ORDER p.items = [p.sourceItems ++ whereItems p.conditionItems,
      .key .BY :: metadataItems workColumn] := by
    rw [items, cut_append]
    · rfl
    · exact lacks_append (p.lacks_sourceItems (.inl rfl)) whereLacks
  simp only [query?, p.spells_text.items?, Query.ofItems?, parts]
  exact body

end Plan

end TagQuery
