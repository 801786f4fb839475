import Mathlib.Data.List.Nodup
import TagQuery.Proofs.Meaning
import TagQuery.Proofs.Recall
import TagQuery.Proofs.Separation

/-! What a line finds is a set of works. A separator outside quotes intersects the sets of the two
sides, and a dash in front of a line of one clause takes the complement among the works that have
metadata. -/
namespace TagQuery

namespace Clause

variable {c : Catalogue} {row : MetadataRow} {clause : Clause}

theorem satisfied_exclude (h : clause.excluded = false) :
    Satisfied c row { clause with excluded := true } ↔ ¬ clause.Satisfied c row := by
  simp [Satisfied, h]

end Clause

theorem Catalogue.metadataRows_injective {c : Catalogue} {row row' : MetadataRow}
    (h : row ∈ c.metadataRows) (h' : row' ∈ c.metadataRows) (same : row.work = row'.work) :
    row = row' := by
  have distinct : (c.metadataRows.map (·.work)).Nodup := by
    rw [List.Nodup, List.pairwise_map]
    exact (c.metadata.getD .empty).ascending.imp Int.ne_of_lt
  exact List.inj_on_of_nodup_map distinct h h' same

namespace Searcher

theorem tighten_append (options : Options) (a b : List Clause) :
    tighten options (a ++ b) = tighten options a ++ tighten options b := by
  unfold tighten
  split
  · rfl
  · exact List.map_append

theorem tighten_exclude (options : Options) (clauses : List Clause) :
    tighten options (clauses.map ({ · with excluded := true })) =
      (tighten options clauses).map ({ · with excluded := true }) := by
  unfold tighten
  split
  · rfl
  · rw [List.map_map, List.map_map]
    rfl

/-- One clause stays one, and is excluded as before. -/
theorem tighten_singleton (options : Options) (clause : Clause) :
    ∃ tight, tighten options [clause] = [tight] ∧ tight.excluded = clause.excluded := by
  unfold tighten
  split
  · exact ⟨clause, rfl, rfl⟩
  · exact ⟨clause.setExact true, rfl, rfl⟩

/-- The works found for a line: its statement is run with the texts bound to it. -/
def find (s : Searcher) (c : Connection) (line : List Char) : Except StoreError (List Int) :=
  let plan := (s.compile line).value
  c.search plan plan.statement.params

/-- A searcher with the options, whatever it did before, gives this answer to a line. -/
def Answers (options : Options) (c : Connection) (line : List Char) (ids : List Int) : Prop :=
  ∃ s : Searcher, s.Reached options ∧ s.find c line = .ok ids

variable {options : Options} {c : Connection}

theorem Reached.find_of_run {s : Searcher} (h : s.Reached options) {line : List Char}
    {ids : List Int}
    (prepared : c.catalogue.prepare
      (Plan.ofClauses (tighten options (Query.read options.wildcards line))) = .ok ())
    (ran : (Plan.ofClauses (tighten options (Query.read options.wildcards line))).run
      (c.catalogue.metadata.getD .empty) (c.catalogue.tags.getD []) (c.catalogue.titles.getD []) =
        .ok ids) :
    s.find c line = .ok ids := by
  simp only [find, h.compile_value]
  exact Connection.search_of_run prepared ran

/-- The answer to a line has the works for which every clause read from it holds, made exact where
the options ask for it. -/
theorem Answers.mem_iff {line : List Char} {ids : List Int} (h : Answers options c line ids)
    (id : Int) :
    id ∈ ids ↔ ∃ row ∈ c.catalogue.metadataRows, row.work = id ∧
      ∀ clause ∈ tighten options (Query.read options.wildcards line),
        clause.Satisfied c.catalogue row := by
  obtain ⟨s, reached, found⟩ := h
  simp only [find, reached.compile_value] at found
  exact Connection.mem_search found id

/-- For a work with metadata, the row in question is fixed. -/
theorem Answers.mem_iff_of_row {line : List Char} {ids : List Int} (h : Answers options c line ids)
    {row : MetadataRow} (hr : row ∈ c.catalogue.metadataRows) :
    row.work ∈ ids ↔ ∀ clause ∈ tighten options (Query.read options.wildcards line),
      clause.Satisfied c.catalogue row := by
  rw [h.mem_iff]
  constructor
  · rintro ⟨other, ho, same, satisfied⟩
    rw [← Catalogue.metadataRows_injective ho hr same]
    exact satisfied
  · intro satisfied
    exact ⟨row, hr, rfl, satisfied⟩

theorem Answers.exists_row {line : List Char} {ids : List Int} (h : Answers options c line ids)
    {id : Int} (hid : id ∈ ids) : ∃ row ∈ c.catalogue.metadataRows, row.work = id := by
  obtain ⟨row, hr, work, -⟩ := (h.mem_iff id).mp hid
  exact ⟨row, hr, work⟩

theorem Answers.mem_append_separator {q₁ q₂ : List Char} {s : Char} {ids₁ ids₂ ids : List Int}
    (closed : Query.quotedAfter false q₁ = false) (hs : Text.isSeparator s = true)
    (h₁ : Answers options c q₁ ids₁) (h₂ : Answers options c q₂ ids₂)
    (h : Answers options c (q₁ ++ s :: q₂) ids) (id : Int) :
    id ∈ ids ↔ id ∈ ids₁ ∧ id ∈ ids₂ := by
  have both : ∀ row ∈ c.catalogue.metadataRows,
      row.work ∈ ids ↔ row.work ∈ ids₁ ∧ row.work ∈ ids₂ := by
    intro row hr
    rw [h.mem_iff_of_row hr, h₁.mem_iff_of_row hr, h₂.mem_iff_of_row hr,
      Query.read_append_closed _ q₂ closed hs, tighten_append]
    exact List.forall_mem_append
  constructor
  · intro hid
    obtain ⟨row, hr, rfl⟩ := h.exists_row hid
    exact (both row hr).mp hid
  · intro hid
    obtain ⟨row, hr, rfl⟩ := h₁.exists_row hid.1
    exact (both row hr).mpr hid

theorem Answers.mem_dash {q : List Char} {clause : Clause} {ids ids' : List Int}
    (unbroken : Query.Unbroken false q) (single : Query.read options.wildcards q = [clause])
    (included : clause.excluded = false)
    (h : Answers options c q ids) (h' : Answers options c ('-' :: q) ids') (id : Int) :
    id ∈ ids' ↔ id ∈ c.catalogue.metadataRows.map (·.work) ∧ id ∉ ids := by
  have other : ∀ row ∈ c.catalogue.metadataRows, row.work ∈ ids' ↔ row.work ∉ ids := by
    intro row hr
    obtain ⟨tight, tightened, same⟩ := tighten_singleton options clause
    rw [h'.mem_iff_of_row hr, h.mem_iff_of_row hr, Query.read_dash _ unbroken, tighten_exclude,
      single, tightened]
    simp [Clause.satisfied_exclude (same.trans included)]
  constructor
  · intro hid
    obtain ⟨row, hr, rfl⟩ := h'.exists_row hid
    exact ⟨List.mem_map_of_mem hr, (other row hr).mp hid⟩
  · rintro ⟨hid, out⟩
    obtain ⟨row, hr, rfl⟩ := List.mem_map.mp hid
    exact (other row hr).mpr out

/-- Search lines obey the algebra of sets: a separator behind a line with its quotes in pairs is the
intersection, and a dash before a line of one clause that is not excluded is the complement. -/
theorem answers_set_algebra (options : Options) (c : Connection) :
    (∀ (q₁ : List Char) (s : Char) (q₂ : List Char) (ids₁ ids₂ ids : List Int),
      Even (q₁.count '"') → Text.isSeparator s = true →
      Answers options c q₁ ids₁ → Answers options c q₂ ids₂ →
      Answers options c (q₁ ++ s :: q₂) ids → ∀ id, id ∈ ids ↔ id ∈ ids₁ ∧ id ∈ ids₂) ∧
    ∀ (q : List Char) (clause : Clause) (ids ids' : List Int),
      Query.Unbroken false q → Query.read options.wildcards q = [clause] →
      clause.excluded = false → Answers options c q ids → Answers options c ('-' :: q) ids' →
      ∀ id, id ∈ ids' ↔ id ∈ c.catalogue.metadataRows.map (·.work) ∧ id ∉ ids := by
  constructor
  · intro q₁ s q₂ ids₁ ids₂ ids even hs h₁ h₂ h
    exact h₁.mem_append_separator (Query.quotedAfter_of_even even) hs h₂ h
  · intro q clause ids ids' unbroken single included h h'
    exact h.mem_dash unbroken single included h'

/-- Three works: one with both tags, and two with one of them each. -/
private def library : Connection where
  catalogue :=
    { metadata := some ⟨[⟨1, some ['a', 'l']⟩, ⟨2, some ['b', 'o']⟩, ⟨3, none⟩], by decide⟩
      tags := some [⟨1, some ['z'], ['a', ' ', 'b'], 0⟩, ⟨1, some ['z'], ['c'], 0⟩,
        ⟨2, none, ['A', ' ', 'B'], 0⟩, ⟨3, some ['z'], ['c'], 0⟩] }

/-- A phrase with a separator in its quotes. -/
private def quotedPhrase : List Char := ['"', 'A', ' ', 'b', '"']

theorem answers_set_algebra_library :
    Answers {} library quotedPhrase [1, 2] ∧ Answers {} library ['z', ':', 'c'] [1, 3] ∧
      Answers {} library (quotedPhrase ++ ',' :: ['z', ':', 'c']) [1] ∧
      Answers {} library ('-' :: quotedPhrase) [3] ∧
      (∀ id, id ∈ [(1 : Int)] ↔ id ∈ [(1 : Int), 2] ∧ id ∈ [(1 : Int), 3]) ∧
      ∀ id, id ∈ [(3 : Int)] ↔
        id ∈ library.catalogue.metadataRows.map (·.work) ∧ id ∉ [(1 : Int), 2] := by
  have quoted : Answers {} library quotedPhrase [1, 2] := ⟨_, .new, Reached.new.find_of_run rfl rfl⟩
  have tag : Answers {} library ['z', ':', 'c'] [1, 3] := ⟨_, .new, Reached.new.find_of_run rfl rfl⟩
  have both : Answers {} library (quotedPhrase ++ ',' :: ['z', ':', 'c']) [1] :=
    ⟨_, .new, Reached.new.find_of_run rfl rfl⟩
  have without : Answers {} library ('-' :: quotedPhrase) [3] :=
    ⟨_, .new, Reached.new.find_of_run rfl rfl⟩
  have unbroken : Query.Unbroken false quotedPhrase := by
    simp only [quotedPhrase, Query.unbroken_cons]
    exact ⟨by decide, by decide, by decide, by decide, by decide, Query.unbroken_nil _⟩
  obtain ⟨intersection, complement⟩ := answers_set_algebra {} library
  exact ⟨quoted, tag, both, without,
    intersection _ _ _ _ _ _ (by decide) (by decide) quoted tag both,
    complement _ _ _ _ unbroken (by rfl) rfl quoted without⟩

end Searcher

end TagQuery
