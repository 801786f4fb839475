import Mathlib.Data.List.Sort
import TagQuery.Proofs.Meaning
import TagQuery.Proofs.Operations

/-! Metadata is replaced when it is stored again, and tags and titles are added as often as they are
stored. A search sees neither the order nor the repetition of the inserts. Main statement: two
catalogues that were filled with the same tags and titles, and with the same metadata at last,
answer every search alike. -/
namespace TagQuery

/-- The same works with the same uploaders, tags and titles; the kinds of tags and titles, their order
and how often they are there do not matter. -/
structure Catalogue.Alike (c c' : Catalogue) : Prop where
  metadata : ∀ row, row ∈ c.metadataRows ↔ row ∈ c'.metadataRows
  tags : ∀ work space name, (∃ kind, ⟨work, space, name, kind⟩ ∈ c.tagRows) ↔
    ∃ kind, ⟨work, space, name, kind⟩ ∈ c'.tagRows
  titles : ∀ work title, (∃ kind, ⟨work, title, kind⟩ ∈ c.titleRows) ↔
    ∃ kind, ⟨work, title, kind⟩ ∈ c'.titleRows

theorem Catalogue.Alike.symm {c c' : Catalogue} (h : c.Alike c') : c'.Alike c where
  metadata row := (h.metadata row).symm
  tags work space name := (h.tags work space name).symm
  titles work title := (h.titles work title).symm

section Alike

variable {c c' : Catalogue} (h : c.Alike c') {row : MetadataRow}
include h

theorem Catalogue.Alike.tag {tag : TagRow} (ht : tag ∈ c.tagRows) :
    ∃ kind, { tag with kind } ∈ c'.tagRows :=
  (h.tags tag.work tag.space tag.name).mp ⟨tag.kind, ht⟩

theorem Catalogue.Alike.title {title : TitleRow} (ht : title ∈ c.titleRows) :
    ∃ kind, { title with kind } ∈ c'.titleRows :=
  (h.titles title.work title.title).mp ⟨title.kind, ht⟩

theorem Subject.Fits.alike {subject : Subject} {exact : Bool} (fits : subject.Fits c row exact) :
    subject.Fits c' row exact := by
  cases subject with
  | text p =>
    rcases fits with ⟨tag, ht, work, named⟩ | ⟨title, ht, work, titled⟩
    · obtain ⟨kind, ht'⟩ := h.tag ht
      exact .inl ⟨_, ht', work, named⟩
    · obtain ⟨kind, ht'⟩ := h.title ht
      exact .inr ⟨_, ht', work, titled⟩
  | tag space phrase =>
    simp only [Fits] at fits ⊢
    split
    · next uploader =>
      rw [if_pos uploader] at fits
      exact fits
    · next tagged =>
      rw [if_neg tagged] at fits
      obtain ⟨tag, ht, work, spaced, named⟩ := fits
      obtain ⟨kind, ht'⟩ := h.tag ht
      exact ⟨_, ht', work, spaced, named⟩

end Alike

theorem Catalogue.Alike.satisfied_iff {c c' : Catalogue} (h : c.Alike c') {row : MetadataRow}
    {clause : Clause} : clause.Satisfied c row ↔ clause.Satisfied c' row := by
  have fits : clause.subject.Fits c row clause.exact ↔ clause.subject.Fits c' row clause.exact :=
    ⟨fun fits => fits.alike h, fun fits => fits.alike h.symm⟩
  unfold Clause.Satisfied
  rw [fits]

namespace Connection

/-- Catalogues that are alike give one answer, if both give an answer. -/
theorem search_alike {c c' : Connection} (h : c.catalogue.Alike c'.catalogue)
    {clauses : List Clause} {ids ids' : List Int}
    (found : c.search (Plan.ofClauses clauses) (Plan.ofClauses clauses).statement.params = .ok ids)
    (found' : c'.search (Plan.ofClauses clauses) (Plan.ofClauses clauses).statement.params =
      .ok ids') : ids = ids' := by
  have members : ∀ id, id ∈ ids ↔ id ∈ ids' := by
    intro id
    rw [mem_search found, mem_search found']
    simp only [h.metadata, h.satisfied_iff]
  rw [Plan.params_statement] at found found'
  have worded := Plan.worded_ofClauses clauses
  exact (search_params_ok worded found).1.eq_of_mem_iff (search_params_ok worded found').1 members

def Insert.metadata? : Insert → Option MetadataRow
  | .metadata row => some row
  | _ => none

def lastMetadata (rows : List Insert) (work : Int) : Option MetadataRow :=
  ((rows.filterMap (·.metadata?)).filter (·.work == work)).getLast?

/-- The same is stored at last: for every work the same uploader, if any metadata, and the same tags
and titles, whatever their kind, in any order and any number of times. -/
structure SameStored (a b : List Insert) : Prop where
  metadata : ∀ work, (lastMetadata a work).map (·.uploader) = (lastMetadata b work).map (·.uploader)
  tags : ∀ work space name, (∃ kind, .tag ⟨work, space, name, kind⟩ ∈ a) ↔
    ∃ kind, .tag ⟨work, space, name, kind⟩ ∈ b
  titles : ∀ work title, (∃ kind, .title ⟨work, title, kind⟩ ∈ a) ↔
    ∃ kind, .title ⟨work, title, kind⟩ ∈ b

end Connection

/-- In ascending rows a row is put in the place of the one with its work. -/
theorem MetadataRow.mem_insert_iff {row r : MetadataRow} {rows : List MetadataRow}
    (h : rows.Pairwise (·.work < ·.work)) :
    r ∈ row.insert rows ↔ r = row ∨ r ∈ rows ∧ r.work ≠ row.work := by
  induction rows with
  | nil => simp [insert]
  | cons s rows ih =>
    obtain ⟨first, rest⟩ := List.pairwise_cons.mp h
    rw [insert]
    split
    · next before =>
      -- all rows are of later works
      have later : ∀ r ∈ s :: rows, r.work ≠ row.work := by
        intro r hr
        rcases List.mem_cons.mp hr with rfl | hr
        · omega
        · have := first r hr
          omega
      rw [List.mem_cons]
      exact or_congr_right (iff_self_and.mpr (later r))
    · split
      · next same =>
        have later : ∀ r ∈ rows, r.work ≠ row.work := by
          intro r hr
          have := first r hr
          omega
        rw [List.mem_cons, List.mem_cons]
        constructor
        · exact Or.imp_right fun hr => ⟨.inr hr, later r hr⟩
        · rintro (new | ⟨rfl | old, other⟩)
          · exact .inl new
          · exact absurd same.symm other
          · exact .inr old
      · next behind =>
        rw [List.mem_cons, List.mem_cons, ih rest]
        constructor
        · rintro (rfl | new | ⟨old, other⟩)
          · exact .inr ⟨.inl rfl, by omega⟩
          · exact .inl new
          · exact .inr ⟨.inr old, other⟩
        · rintro (new | ⟨rfl | old, other⟩)
          · exact .inr (.inl new)
          · exact .inl rfl
          · exact .inr (.inr ⟨old, other⟩)

namespace Catalogue

theorem metadataRows_putMetadata {c : Catalogue} (h : c.has .metadata = true) (row : MetadataRow) :
    (c.putMetadata row).metadataRows = row.insert c.metadataRows := by
  obtain ⟨metadata, present⟩ := Option.isSome_iff_exists.mp h
  simp only [metadataRows, putMetadata, present]
  rfl

theorem tagRows_addTag {c : Catalogue} (h : c.has .tags = true) (row : TagRow) :
    (c.addTag row).tagRows = row :: c.tagRows := by
  obtain ⟨tags, present⟩ := Option.isSome_iff_exists.mp h
  simp only [tagRows, addTag, present]
  rfl

theorem titleRows_addTitle {c : Catalogue} (h : c.has .titles = true) (row : TitleRow) :
    (c.addTitle row).titleRows = row :: c.titleRows := by
  obtain ⟨titles, present⟩ := Option.isSome_iff_exists.mp h
  simp only [titleRows, addTitle, present]
  rfl

end Catalogue

namespace Connection

/-- The catalogue holds what the inserts store, and nothing else. -/
structure Filled (rows : List Insert) (c : Catalogue) : Prop where
  metadata : ∀ row, row ∈ c.metadataRows ↔ lastMetadata rows row.work = some row
  tags : ∀ row, row ∈ c.tagRows ↔ .tag row ∈ rows
  titles : ∀ row, row ∈ c.titleRows ↔ .title row ∈ rows

theorem filled_empty : Filled [] {} := by
  constructor <;> simp [lastMetadata, Catalogue.metadataRows, Catalogue.tagRows,
    Catalogue.titleRows, Metadata.empty]

theorem lastMetadata_append_metadata (rows : List Insert) (row : MetadataRow) (work : Int) :
    lastMetadata (rows ++ [.metadata row]) work =
      if row.work = work then some row else lastMetadata rows work := by
  unfold lastMetadata
  rw [List.filterMap_append, List.filter_append, List.getLast?_append]
  by_cases same : row.work = work <;> simp [Insert.metadata?, same]

theorem lastMetadata_append_other (rows : List Insert) {x : Insert} (h : x.metadata? = none)
    (work : Int) : lastMetadata (rows ++ [x]) work = lastMetadata rows work := by
  unfold lastMetadata
  rw [List.filterMap_append, List.filterMap_cons_none h, List.filterMap_nil, List.append_nil]

/-- Every insert that succeeds adds what it stores, and metadata in the place of older metadata. -/
theorem Filled.insert {rows : List Insert} {c c' : Connection} (h : Filled rows c.catalogue)
    {x : Insert} (inserted : c.insert x = .ok c') : Filled (rows ++ [x]) c'.catalogue := by
  obtain ⟨present, -, rfl⟩ := insert_eq_ok_iff.mp inserted
  cases x with
  | metadata row =>
    refine ⟨fun r => ?_, fun r => (h.tags r).trans (by simp), fun r => (h.titles r).trans (by simp)⟩
    have ascending : c.catalogue.metadataRows.Pairwise (·.work < ·.work) :=
      (c.catalogue.metadata.getD .empty).ascending
    rw [Insert.change, Catalogue.metadataRows_putMetadata present,
      MetadataRow.mem_insert_iff ascending, h.metadata, lastMetadata_append_metadata]
    split
    · next same =>
      simp [same, eq_comm]
    · next other =>
      have different : r ≠ row := by
        rintro rfl
        exact other rfl
      simp [different, Ne.symm other]
  | tag row =>
    refine ⟨fun r => ?_, fun r => ?_, fun r => (h.titles r).trans (by simp)⟩
    · rw [lastMetadata_append_other rows rfl]
      exact h.metadata r
    · rw [Insert.change, Catalogue.tagRows_addTag present, List.mem_cons, h.tags]
      simp [or_comm]
  | title row =>
    refine ⟨fun r => ?_, fun r => (h.tags r).trans (by simp), fun r => ?_⟩
    · rw [lastMetadata_append_other rows rfl]
      exact h.metadata r
    · rw [Insert.change, Catalogue.titleRows_addTitle present, List.mem_cons, h.titles]
      simp [or_comm]

theorem Filled.inserts {rows more : List Insert} {c c' : Connection} (h : Filled rows c.catalogue)
    (inserted : more.foldlM Connection.insert c = .ok c') : Filled (rows ++ more) c'.catalogue := by
  induction more generalizing rows c with
  | nil =>
    cases inserted
    rw [List.append_nil]
    exact h
  | cons x more ih =>
    rw [List.foldlM_cons] at inserted
    cases first : c.insert x with
    | error e =>
      rw [first] at inserted
      cases inserted
    | ok next =>
      rw [first] at inserted
      have filled := ih (h.insert first) inserted
      rw [List.append_assoc] at filled
      exact filled

theorem filled_of_inserts {rows : List Insert} {c : Connection}
    (h : rows.foldlM Connection.insert {} = .ok c) : Filled rows c.catalogue :=
  @Filled.inserts [] rows {} c filled_empty h

theorem lastMetadata_eq_some_iff {rows : List Insert} {row : MetadataRow} :
    lastMetadata rows row.work = some row ↔
      (lastMetadata rows row.work).map (·.uploader) = some row.uploader := by
  constructor
  · intro last
    rw [last]
    rfl
  · intro uploader
    obtain ⟨r, last, same⟩ := Option.map_eq_some_iff.mp uploader
    have work : r.work = row.work := by
      have passed := (List.mem_filter.mp (List.mem_of_getLast? last)).2
      exact beq_iff_eq.mp passed
    have equal : r = row := by
      obtain ⟨work', uploader'⟩ := r
      cases row
      simp_all
    rw [last, equal]

theorem SameStored.alike {a b : List Insert} (h : SameStored a b) {c c' : Catalogue}
    (ha : Filled a c) (hb : Filled b c') : c.Alike c' where
  metadata row := by
    rw [ha.metadata, hb.metadata, lastMetadata_eq_some_iff, lastMetadata_eq_some_iff, h.metadata]
  tags work space name := by
    simp only [ha.tags, hb.tags]
    exact h.tags work space name
  titles work title := by
    simp only [ha.titles, hb.titles]
    exact h.titles work title

/-- A search depends on what was stored and not on how: two catalogues that were filled from empty
ones, with the same uploader at last for every work and with the same tags and titles, give the same
answer to every list of clauses, if both give one. -/
theorem search_forgets_inserts {a b : List Insert} {c c' : Connection}
    (ha : a.foldlM Connection.insert {} = .ok c) (hb : b.foldlM Connection.insert {} = .ok c')
    (same : SameStored a b) {clauses : List Clause} {ids ids' : List Int}
    (found : c.search (Plan.ofClauses clauses) (Plan.ofClauses clauses).statement.params = .ok ids)
    (found' : c'.search (Plan.ofClauses clauses) (Plan.ofClauses clauses).statement.params =
      .ok ids') : ids = ids' := by
  have alike := same.alike (filled_of_inserts ha) (filled_of_inserts hb)
  exact search_alike alike found found'

/-- An uploader that is replaced, and a tag of a work that gets its metadata last. -/
private def hasty : List Insert :=
  [.metadata ⟨1, some ['b', 'o']⟩, .tag ⟨2, none, ['c', 'a', 't'], 0⟩, .title ⟨1, ['c', 'a', 't'], 0⟩,
    .metadata ⟨1, some ['a', 'l']⟩, .metadata ⟨2, none⟩]

private def careful : List Insert :=
  [.metadata ⟨2, none⟩, .metadata ⟨1, some ['a', 'l']⟩, .title ⟨1, ['c', 'a', 't'], 3⟩,
    .tag ⟨2, none, ['c', 'a', 't'], 1⟩, .tag ⟨2, none, ['c', 'a', 't'], 1⟩]

private def filling (rows : List Insert) : Connection :=
  (rows.foldlM Connection.insert {}).toOption.getD {}

private def bosCats : List Clause :=
  [⟨.text ⟨[.lit ['c', 'a'], .one], by decide⟩, false, false⟩,
    ⟨.tag Namespace.uploader (some ⟨[.lit ['b', 'o']], by decide⟩), true, false⟩]

theorem search_forgets_inserts_cats : SameStored hasty careful ∧
    hasty.foldlM Connection.insert {} = .ok (filling hasty) ∧
    careful.foldlM Connection.insert {} = .ok (filling careful) ∧
    (filling hasty).search (Plan.ofClauses bosCats) (Plan.ofClauses bosCats).statement.params =
      .ok [1, 2] ∧
    (∃ ids, (filling careful).search (Plan.ofClauses bosCats)
      (Plan.ofClauses bosCats).statement.params = .ok ids) ∧
    ∀ ids, (filling careful).search (Plan.ofClauses bosCats)
      (Plan.ofClauses bosCats).statement.params = .ok ids → [1, 2] = ids := by
  have same : SameStored hasty careful := by
    constructor
    · intro work
      by_cases one : 1 = work
      · subst one
        rfl
      · by_cases two : 2 = work
        · subst two
          rfl
        · simp [lastMetadata, hasty, careful, Insert.metadata?, one, two]
    · intro work space name
      simp [hasty, careful]
    · intro work title
      simp [hasty, careful]
  have stored : hasty.foldlM Connection.insert {} = .ok (filling hasty) := by rfl
  have stored' : careful.foldlM Connection.insert {} = .ok (filling careful) := by rfl
  have found : (filling hasty).search (Plan.ofClauses bosCats)
      (Plan.ofClauses bosCats).statement.params = .ok [1, 2] := search_of_run rfl rfl
  have found' : (filling careful).search (Plan.ofClauses bosCats)
      (Plan.ofClauses bosCats).statement.params = .ok [1, 2] := search_of_run rfl rfl
  exact ⟨same, stored, stored', found, ⟨_, found'⟩,
    fun ids found' => search_forgets_inserts stored stored' same found found'⟩

end Connection

end TagQuery
