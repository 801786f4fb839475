import TagQuery.Catalogue.Connection
import TagQuery.Plan.Compile
import TagQuery.Proofs.SearchAnswer

/-! A clause is given a meaning of its own, as a statement about one row of the metadata beside the
tags and titles of its work. The plan of a list of clauses spreads them over joins, exclusions and
conditions on the uploader. Main statement: the answer of a search is the list of the works for
which every clause holds. -/
namespace TagQuery

namespace Catalogue

def metadataRows (c : Catalogue) : List MetadataRow := (c.metadata.getD .empty).rows

def tagRows (c : Catalogue) : List TagRow := c.tags.getD []

def titleRows (c : Catalogue) : List TitleRow := c.titles.getD []

end Catalogue

/-- A tag name fits an exact phrase as a whole, any other phrase if it matches one of the lenient
patterns. -/
def Phrase.FitsName (p : Phrase) (exact : Bool) (name : List Char) : Prop :=
  if exact then Like.holds p.exactPattern name = true
  else ∃ pattern ∈ p.lenientPatterns, Like.holds pattern name = true

/-- A title fits an exact phrase as a whole, any other phrase if it contains it. -/
def Phrase.FitsTitle (p : Phrase) (exact : Bool) (title : List Char) : Prop :=
  if exact then Like.holds p.exactPattern title = true
  else Like.holds p.containedPattern title = true

/-- Whether a work has what a clause asks for, its exclusion left aside. A namespace and a phrase
in it have to be those of one and the same tag. -/
def Subject.Fits (c : Catalogue) (row : MetadataRow) (exact : Bool) : Subject → Prop
  | .text p =>
      (∃ tag ∈ c.tagRows, tag.work = row.work ∧ p.FitsName exact tag.name) ∨
      ∃ title ∈ c.titleRows, title.work = row.work ∧ p.FitsTitle exact title.title
  | .tag space phrase =>
      if space = Namespace.uploader then
        ∃ name ∈ row.uploader, ∀ p ∈ phrase, Like.holds p.exactPattern name = true
      else
        ∃ tag ∈ c.tagRows, tag.work = row.work ∧
          (∃ value ∈ tag.space, Like.holds (Like.escape space) value = true) ∧
          ∀ p ∈ phrase, p.FitsName exact tag.name

/-- An excluded clause holds exactly where it would not hold without the exclusion. -/
def Clause.Satisfied (c : Catalogue) (row : MetadataRow) (clause : Clause) : Prop :=
  if clause.excluded then ¬ clause.subject.Fits c row clause.exact
  else clause.subject.Fits c row clause.exact

section Compiled

variable {c : Catalogue} {row : MetadataRow} {exact : Bool}

theorem Phrase.fitsName_iff {p : Phrase} {name : List Char} :
    p.FitsName exact name ↔ ∃ pattern ∈ p.namePatterns exact, Like.holds pattern name = true := by
  cases exact with
  | false => rfl
  | true => simp [FitsName, namePatterns]

theorem Phrase.fitsTitle_iff {p : Phrase} {title : List Char} :
    p.FitsTitle exact title ↔ Like.holds (p.titlePattern exact) title = true := by
  cases exact <;> rfl

theorem SubQuery.finds_ofText (p : Phrase) :
    (SubQuery.ofText exact p).Finds c.tagRows c.titleRows row.work ↔
      (Subject.text p).Fits c row exact := by
  simp only [ofText, Finds, Subject.Fits, Phrase.fitsName_iff, Phrase.fitsTitle_iff]

theorem SubQuery.finds_ofTag {space : List Char} (h : space ≠ Namespace.uploader)
    (phrase : Option Phrase) :
    (SubQuery.ofTag exact space phrase).Finds c.tagRows c.titleRows row.work ↔
      (Subject.tag space phrase).Fits c row exact := by
  simp only [ofTag, Finds, Subject.Fits, if_neg h]
  cases phrase with
  | none => simp
  | some p => simp [Phrase.fitsName_iff]

theorem Clause.finds_subQuery {clause : Clause} (h : clause.isUploader = false) :
    clause.subQuery.Finds c.tagRows c.titleRows row.work ↔
      clause.subject.Fits c row clause.exact := by
  unfold Clause.isUploader at h
  unfold Clause.subQuery
  split
  · next space phrase tagged =>
    rw [tagged] at h
    rw [tagged]
    exact SubQuery.finds_ofTag (by simpa using h) phrase
  · next p free =>
    rw [free]
    exact SubQuery.finds_ofText p

/-- The condition on the uploader takes the exclusion in itself, and so never meets a missing
uploader unawares. -/
theorem Clause.passes_uploaderTest (clause : Clause) {phrase : Option Phrase}
    (h : clause.subject = .tag Namespace.uploader phrase) :
    (clause.uploaderTest phrase).Passes row.uploader ↔ clause.Satisfied c row := by
  simp only [Clause.Satisfied, h, Subject.Fits, if_true]
  cases phrase with
  | none =>
    cases excluded : clause.excluded <;>
      simp [uploaderTest, excluded, UploaderTest.Passes, Option.isSome_iff_exists]
  | some p =>
    cases excluded : clause.excluded <;> simp [uploaderTest, excluded, UploaderTest.Passes]

/-- Each clause goes to exactly one of the three parts of a plan, and means there what it means. -/
theorem Clause.satisfied_iff (clause : Clause) :
    clause.Satisfied c row ↔
      (∀ q ∈ clause.joined?, q.Finds c.tagRows c.titleRows row.work) ∧
      (∀ q ∈ clause.excluded?, ¬ q.Finds c.tagRows c.titleRows row.work) ∧
      ∀ t ∈ clause.uploader?, t.Passes row.uploader := by
  cases uploader : clause.isUploader with
  | true =>
    obtain ⟨phrase, tagged⟩ : ∃ phrase, clause.subject = .tag Namespace.uploader phrase := by
      unfold isUploader at uploader
      split at uploader
      · next space phrase tagged => exact ⟨phrase, by simpa [tagged] using uploader⟩
      · cases uploader
    rw [← clause.passes_uploaderTest tagged]
    simp [joined?, excluded?, uploader?, uploader, tagged]
  | false =>
    have none_uploader : clause.uploader? = none := by
      unfold isUploader at uploader
      unfold uploader?
      split <;> simp_all
    rw [none_uploader, Satisfied, ← clause.finds_subQuery uploader]
    cases excluded : clause.excluded <;> simp [joined?, excluded?, uploader, excluded]

theorem Plan.accepts_ofClauses (clauses : List Clause) :
    (Plan.ofClauses clauses).Accepts c.tagRows c.titleRows row ↔
      ∀ clause ∈ clauses, clause.Satisfied c row := by
  simp only [Clause.satisfied_iff]
  constructor
  · intro accepted clause hc
    refine ⟨fun q hq => accepted.joined q ?_, fun q hq => accepted.excluded q ?_,
      fun t ht => accepted.uploaders t ?_⟩
    · exact List.mem_filterMap.mpr ⟨clause, hc, hq⟩
    · exact List.mem_filterMap.mpr ⟨clause, hc, hq⟩
    · exact List.mem_filterMap.mpr ⟨clause, hc, ht⟩
  · intro satisfied
    constructor
    · intro q hq
      obtain ⟨clause, hc, found⟩ := List.mem_filterMap.mp hq
      exact (satisfied clause hc).1 q found
    · intro q hq
      obtain ⟨clause, hc, found⟩ := List.mem_filterMap.mp hq
      exact (satisfied clause hc).2.1 q found
    · intro t ht
      obtain ⟨clause, hc, found⟩ := List.mem_filterMap.mp ht
      exact (satisfied clause hc).2.2 t found

end Compiled

namespace Connection

theorem answer?_of_search {c : Connection} {p : Plan (List Char)} {ids : List Int}
    (h : c.search p p.params = .ok ids) :
    c.catalogue.answer? p.statement.text p.params = some ids := by
  cases found : c.catalogue.search p p.params with
  | error fault =>
    rw [search, found] at h
    cases h
  | ok works =>
    rw [search, found] at h
    cases h
    rw [Plan.text_of_bind? p.bind?_params]
    exact Catalogue.answer?_of_search found

theorem search_params_ok {c : Connection} {p : Plan (List Char)} (worded : p.Worded)
    {ids : List Int} (h : c.search p p.params = .ok ids) :
    ids.Pairwise (· < ·) ∧ ∀ id, id ∈ ids ↔ ∃ row ∈ c.catalogue.metadataRows,
      row.work = id ∧ p.Accepts c.catalogue.tagRows c.catalogue.titleRows row := by
  obtain ⟨works, answer, listed⟩ := c.catalogue.answer?_text worded
  have same : some ids = some works := (answer?_of_search h).symm.trans answer
  rw [Option.some.inj same]
  exact listed

/-- What a prepared statement finds is found by a run of its plan, without reading the text. -/
theorem search_of_run {c : Connection} {clauses : List Clause} {ids : List Int}
    (prepared : c.catalogue.prepare (Plan.ofClauses clauses) = .ok ())
    (ran : (Plan.ofClauses clauses).run (c.catalogue.metadata.getD .empty)
      (c.catalogue.tags.getD []) (c.catalogue.titles.getD []) = .ok ids) :
    c.search (Plan.ofClauses clauses) (Plan.ofClauses clauses).statement.params = .ok ids := by
  rw [Plan.params_statement, search, c.catalogue.search_eq (Plan.worded_ofClauses clauses),
    prepared, Plan.bind?_params]
  simp only [ran]
  rfl

theorem mem_search {c : Connection} {clauses : List Clause} {ids : List Int}
    (h : c.search (Plan.ofClauses clauses) (Plan.ofClauses clauses).statement.params = .ok ids)
    (id : Int) : id ∈ ids ↔ ∃ row ∈ c.catalogue.metadataRows,
      row.work = id ∧ ∀ clause ∈ clauses, clause.Satisfied c.catalogue row := by
  rw [Plan.params_statement] at h
  rw [(search_params_ok (Plan.worded_ofClauses clauses) h).2 id]
  simp only [Plan.accepts_ofClauses]

/-- The statement of a list of clauses, run with the texts bound to it, gives what its text asks for:
exactly the works of the metadata for which every clause holds, each once and in ascending order. -/
theorem search_lists_satisfying {c : Connection} {clauses : List Clause} {ids : List Int}
    (h : c.search (Plan.ofClauses clauses) (Plan.ofClauses clauses).statement.params = .ok ids) :
    c.catalogue.answer? (Plan.ofClauses clauses).statement.text
      (Plan.ofClauses clauses).statement.params = some ids ∧
    ids.Pairwise (· < ·) ∧ ∀ id, id ∈ ids ↔ ∃ row ∈ c.catalogue.metadataRows,
      row.work = id ∧ ∀ clause ∈ clauses, clause.Satisfied c.catalogue row := by
  have members := mem_search h
  rw [Plan.params_statement] at h ⊢
  exact ⟨answer?_of_search h, (search_params_ok (Plan.worded_ofClauses clauses) h).1, members⟩

/-- Four works, one of them without an uploader and one with the same tag twice, and a tag whose
work has no metadata. -/
private def shelf : Connection where
  catalogue :=
    { metadata := some ⟨[⟨-3, some ['b', 'o']⟩, ⟨1, none⟩, ⟨2, some ['a', 'l']⟩, ⟨7, none⟩], by decide⟩
      tags := some [⟨1, some ['f'], ['c', 'a', 't'], 0⟩, ⟨1, some ['F'], ['c', 'a', 't'], 1⟩,
        ⟨2, some ['f'], ['C', 'A', 'T'], 0⟩, ⟨7, none, ['c', 'a', 't'], 0⟩,
        ⟨9, some ['f'], ['c', 'a', 't'], 0⟩]
      titles := some [⟨-3, ['a', ' ', 'c', 'a', 't'], 0⟩] }

/-- Tags of the namespace `f`, with a name or a title that has `cat`, and not uploaded by `al`. -/
private def wanted : List Clause :=
  [⟨.tag ['f'] none, false, false⟩, ⟨.text ⟨[.lit ['c', 'a', 't']], by decide⟩, false, false⟩,
    ⟨.tag Namespace.uploader (some ⟨[.lit ['a'], .many], by decide⟩), true, false⟩]

theorem search_lists_satisfying_shelf :
    shelf.search (Plan.ofClauses wanted) (Plan.ofClauses wanted).statement.params = .ok [1] ∧
      shelf.catalogue.answer? (Plan.ofClauses wanted).statement.text
        (Plan.ofClauses wanted).statement.params = some [1] ∧
      [(1 : Int)].Pairwise (· < ·) ∧ ∀ id, id ∈ [(1 : Int)] ↔
        ∃ row ∈ shelf.catalogue.metadataRows,
          row.work = id ∧ ∀ clause ∈ wanted, clause.Satisfied shelf.catalogue row := by
  have found : shelf.search (Plan.ofClauses wanted) (Plan.ofClauses wanted).statement.params =
      .ok [1] := search_of_run rfl rfl
  exact ⟨found, search_lists_satisfying found⟩

end Connection

end TagQuery
