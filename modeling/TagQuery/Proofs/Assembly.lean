import TagQuery.Proofs.Binding
import TagQuery.Proofs.PlanRun
import TagQuery.Proofs.PlanShape

/-! The fragments of a plan are balanced by their type, and nothing is left to check when its
statement is built. Here the statement is put together in another way, clause after clause and by
calls on a select: every fragment is made from a text and parameters with the check that they fit, a
clause with nothing to look for is left out, and an exclusion is wrapped around a finished fragment.
Main statement: the checks all pass, the outcome is the select of the plan, every clause has its
place in it, and the parameters are those of the clauses, in the order of their places. -/
namespace TagQuery

open Sql (Fragment Mismatch Select Call)

/-- The tests of a tag name are a fragment of their own, whose text and parameters go into that of the
sub-query. -/
def SubQuery.assemble : SubQuery (List Char) → Except Mismatch Fragment
  | .tagged space none => Fragment.make (taggedHead ++ andText ++ spaceTest ++ [')']) [space]
  | .tagged space (some names) => do
    let tests ← Fragment.make (namesText names) names
    Fragment.make (taggedHead ++ andText ++ spaceTest ++ andText ++ tests.sql ++ [')'])
      (space :: tests.params)
  | .free names title => do
    let tests ← Fragment.make (namesText names) names
    Fragment.make (freeHead ++ tests.sql ++ titleHead ++ titleTest ++ [')']) (tests.params ++ [title])

theorem make_names (names : List (List Char)) :
    Fragment.make (namesText names) names =
      .ok ⟨namesText names, names, placeholders_namesText names⟩ :=
  Fragment.make_self ⟨namesText names, names, placeholders_namesText names⟩

theorem SubQuery.assemble_eq (q : SubQuery (List Char)) : q.assemble = .ok q.fragment := by
  rw [← Fragment.make_self q.fragment]
  cases q with
  | tagged space names =>
    cases names with
    | none => simp only [assemble, fragment, sql, params]
    | some names => simp only [assemble, make_names, bind, Except.bind, fragment, sql, params]
  | free names title => simp only [assemble, make_names, bind, Except.bind, fragment, sql, params]

def UploaderTest.assemble (t : UploaderTest (List Char)) : Except Mismatch Fragment :=
  Fragment.make t.sql t.params

theorem UploaderTest.assemble_eq (t : UploaderTest (List Char)) : t.assemble = .ok t.fragment :=
  Fragment.make_self t.fragment

def exclusionText (sql : List Char) : List Char :=
  SubQuery.exclusionHead ++ sql ++ [')']

theorem SubQuery.mapText_exclusion (q : SubQuery (List Char)) :
    q.fragment.mapText exclusionText = .ok q.exclusion :=
  Fragment.make_self q.exclusion

structure Parts where
  joined : List Fragment := []
  excluded : List Fragment := []
  uploaders : List Fragment := []

namespace Parts

def addSubQuery (parts : Parts) (excluded : Bool) :
    Option (SubQuery (List Char)) → Except Mismatch Parts
  | none => .ok parts
  | some q => do
    let f ← q.assemble
    if excluded then return { parts with excluded := parts.excluded ++ [f] }
    else return { parts with joined := parts.joined ++ [f] }

def addClause (parts : Parts) (c : Clause) : Except Mismatch Parts :=
  match c.subject with
  | .text phrase => parts.addSubQuery c.excluded (SubQuery.of? none (some phrase) c.exact)
  | .tag space phrase =>
    if space = Namespace.uploader then do
      let f ← (c.uploaderTest phrase).assemble
      return { parts with uploaders := parts.uploaders ++ [f] }
    else parts.addSubQuery c.excluded (SubQuery.of? (some space) phrase c.exact)

def append (parts : Parts) (p : Plan (List Char)) : Parts where
  joined := parts.joined ++ p.joined.map (·.fragment)
  excluded := parts.excluded ++ p.excluded.map (·.fragment)
  uploaders := parts.uploaders ++ p.uploaders.map (·.fragment)

theorem addSubQuery_eq (parts : Parts) (excluded : Bool) (q : SubQuery (List Char)) :
    parts.addSubQuery excluded (some q) =
      .ok (parts.append (if excluded then ⟨[], [q], []⟩ else ⟨[q], [], []⟩)) := by
  rw [addSubQuery, q.assemble_eq]
  cases excluded with
  | true => simp [append, bind, Except.bind, pure, Except.pure]
  | false => simp [append, bind, Except.bind, pure, Except.pure]

theorem addClause_of_tags (parts : Parts) {c : Clause} (h : c.isUploader = false) :
    parts.addClause c = parts.addSubQuery c.excluded (some c.subQuery) := by
  unfold addClause Clause.subQuery
  cases subject : c.subject with
  | text phrase => rfl
  | tag space phrase => exact if_neg (Clause.space_ne_uploader h subject)

theorem addClause_of_uploader (parts : Parts) {c : Clause} (h : c.isUploader = true) :
    parts.addClause c =
      .ok { parts with uploaders := parts.uploaders ++ [(c.uploaderTest c.phrase?).fragment] } := by
  unfold addClause
  rw [Clause.subject_of_uploader h]
  simp only [if_true, UploaderTest.assemble_eq]
  rfl

/-- A clause adds what it adds to a plan: the checks pass, and it is not left out. -/
theorem addClause_eq (parts : Parts) (c : Clause) :
    parts.addClause c = .ok (parts.append (Plan.ofClauses [c])) := by
  cases uploader : c.isUploader with
  | true =>
    rw [addClause_of_uploader parts uploader]
    simp [append, Plan.ofClauses, Clause.joined?, Clause.excluded?, Clause.uploader?_eq, uploader]
  | false =>
    rw [addClause_of_tags parts uploader, addSubQuery_eq]
    cases excluded : c.excluded <;>
      simp [append, Plan.ofClauses, Clause.joined?, Clause.excluded?, Clause.uploader?_eq,
        uploader, excluded]

theorem append_append (parts : Parts) (c : Clause) (clauses : List Clause) :
    (parts.append (Plan.ofClauses [c])).append (Plan.ofClauses clauses) =
      parts.append (Plan.ofClauses (c :: clauses)) := by
  have both : ∀ {σ : Type} (part? : Clause → Option σ),
      (c :: clauses).filterMap part? = [c].filterMap part? ++ clauses.filterMap part? :=
    fun part? => List.filterMap_append (l := [c])
  simp only [append, Plan.ofClauses, both, List.map_append, List.append_assoc]

theorem addClauses_eq (parts : Parts) (clauses : List Clause) :
    clauses.foldlM addClause parts = .ok (parts.append (Plan.ofClauses clauses)) := by
  induction clauses generalizing parts with
  | nil =>
    simp [append, Plan.ofClauses, pure, Except.pure]
  | cons c clauses ih =>
    rw [List.foldlM_cons, addClause_eq, ← append_append parts c clauses]
    exact ih _

end Parts

def assemble (clauses : List Clause) : Except Mismatch Select := do
  let parts ← clauses.foldlM Parts.addClause {}
  let exclusions ← parts.excluded.mapM (·.mapText exclusionText)
  let calls := parts.joined.map (fun f => Call.join ⟨f, Plan.foundColumn, Plan.metadataWork⟩)
    ++ exclusions.map .condition ++ parts.uploaders.map .condition ++ [.order Plan.metadataWork]
  return Select.run { head := Plan.metadataHead } calls

theorem mapM_exclusion (qs : List (SubQuery (List Char))) :
    (qs.map (·.fragment)).mapM (·.mapText exclusionText) = .ok (qs.map (·.exclusion)) := by
  induction qs with
  | nil => rfl
  | cons q qs ih =>
    rw [List.map_cons, List.mapM_cons, q.mapText_exclusion, ih]
    rfl

/-- Calls on a fresh select in the order of the parts of a plan make the select of the plan. -/
theorem Plan.run_calls (p : Plan (List Char)) :
    Select.run { head := metadataHead }
        ((p.joined.map (·.fragment)).map (fun f => Call.join ⟨f, foundColumn, metadataWork⟩)
          ++ (p.excluded.map (·.exclusion)).map .condition
          ++ (p.uploaders.map (·.fragment)).map .condition ++ [.order metadataWork]) =
      p.select := by
  rw [Select.run_eq]
  simp [select, List.filterMap_append, List.filterMap_map, Function.comp_def, Call.join?,
    Call.condition?, Call.order?]

theorem assemble_eq (clauses : List Clause) :
    assemble clauses = .ok (Plan.ofClauses clauses).select := by
  have exclusions := mapM_exclusion (Plan.ofClauses clauses).excluded
  rw [assemble, Parts.addClauses_eq]
  simp only [Parts.append, List.nil_append, bind, Except.bind, exclusions]
  exact congrArg Except.ok (Plan.ofClauses clauses).run_calls

namespace Clause

def boundTexts (c : Clause) : List (List Char) :=
  match c.subject with
  | .text phrase => phrase.namePatterns c.exact ++ [phrase.titlePattern c.exact]
  | .tag space phrase =>
    if space = Namespace.uploader then (phrase.map (·.exactPattern)).toList
    else Like.escape space :: (phrase.map (·.namePatterns c.exact)).getD []

theorem params_subQuery {c : Clause} (h : c.isUploader = false) :
    c.subQuery.params = c.boundTexts := by
  unfold subQuery boundTexts
  cases subject : c.subject with
  | text phrase => rfl
  | tag space phrase =>
    simp only [if_neg (space_ne_uploader h subject)]
    cases phrase <;> rfl

theorem params_uploaderTest {c : Clause} (h : c.isUploader = true) :
    (c.uploaderTest c.phrase?).params = c.boundTexts := by
  unfold boundTexts
  rw [subject_of_uploader h]
  simp only [if_true]
  unfold uploaderTest
  cases c.phrase? <;> cases c.excluded <;> rfl

theorem joined?_params (c : Clause) :
    c.joined?.map (·.params) =
      if !c.excluded && !c.isUploader then some c.boundTexts else none := by
  unfold joined?
  cases uploader : c.isUploader with
  | true => simp
  | false => cases c.excluded <;> simp [params_subQuery uploader]

theorem excluded?_params (c : Clause) :
    c.excluded?.map (·.params) =
      if c.excluded && !c.isUploader then some c.boundTexts else none := by
  unfold excluded?
  cases uploader : c.isUploader with
  | true => simp
  | false => cases c.excluded <;> simp [params_subQuery uploader]

theorem uploader?_params (c : Clause) :
    c.uploader?.map (·.params) = if c.isUploader then some c.boundTexts else none := by
  rw [uploader?_eq]
  cases uploader : c.isUploader with
  | true => simp [params_uploaderTest uploader]
  | false => rfl

end Clause

section Places

variable {σ : Type} {part? : Clause → Option σ} {place : Clause → Bool} {params : σ → List (List Char)}
  (h : ∀ c, (part? c).map params = if place c then some c.boundTexts else none)
include h

theorem length_filterMap_place (clauses : List Clause) :
    (clauses.filterMap part?).length = clauses.countP place := by
  have some_iff : ∀ c, (part? c).isSome = place c := by
    intro c
    rw [← Option.isSome_map (f := params), h]
    cases place c <;> rfl
  rw [List.length_filterMap_eq_countP]
  simp only [some_iff]

theorem flatMap_filterMap_place (clauses : List Clause) :
    (clauses.filterMap part?).flatMap params = (clauses.filter place).flatMap (·.boundTexts) := by
  induction clauses with
  | nil => rfl
  | cons c clauses ih =>
    have first := h c
    rw [List.filterMap_cons, List.filter_cons]
    cases placed : place c with
    | true =>
      obtain ⟨part, found, bound⟩ : ∃ part, part? c = some part ∧ params part = c.boundTexts := by
        simpa [placed] using first
      simp [found, bound, ih]
    | false =>
      have none : part? c = none := by simpa [placed] using first
      simp [none, ih]

theorem exists_of_mem_filterMap_place {clauses : List Clause} {part : σ}
    (hp : part ∈ clauses.filterMap part?) : ∃ c ∈ clauses, params part = c.boundTexts := by
  obtain ⟨c, hc, found⟩ := List.mem_filterMap.mp hp
  have bound := h c
  rw [found] at bound
  refine ⟨c, hc, ?_⟩
  split at bound
  · exact Option.some.inj bound
  · cases bound

end Places

namespace Plan

theorem metadataHead_plain : '?' ∉ metadataHead := Sql.of_literal (P := ('?' ∉ ·)) (by decide)
theorem metadataWork_plain : '?' ∉ metadataWork := Sql.of_literal (P := ('?' ∉ ·)) (by decide)
theorem foundColumn_plain : '?' ∉ foundColumn := Sql.of_literal (P := ('?' ∉ ·)) (by decide)

theorem select_plain (p : Plan (List Char)) : p.select.Plain where
  head := metadataHead_plain
  joins := by
    intro j hj
    obtain ⟨q, -, rfl⟩ := List.mem_map.mp hj
    exact ⟨foundColumn_plain, metadataWork_plain⟩
  order := by
    intro column hc
    cases hc
    exact metadataWork_plain

theorem length_joins_ofClauses (clauses : List Clause) :
    (ofClauses clauses).select.joins.length =
      clauses.countP fun c => !c.excluded && !c.isUploader := by
  rw [← length_filterMap_place Clause.joined?_params]
  exact List.length_map _

/-- A condition is a clause on the uploader, or one that is excluded and not on the uploader. -/
theorem countP_conditions (clauses : List Clause) :
    clauses.countP (fun c => c.excluded && !c.isUploader) + clauses.countP (fun c => c.isUploader) =
      clauses.countP fun c => c.excluded || c.isUploader := by
  induction clauses with
  | nil => rfl
  | cons c clauses ih =>
    simp only [List.countP_cons, ← ih]
    cases c.excluded <;> cases c.isUploader <;> simp <;> omega

theorem length_conditions_ofClauses (clauses : List Clause) :
    (ofClauses clauses).select.conditions.length =
      clauses.countP fun c => c.excluded || c.isUploader := by
  have excluded := length_filterMap_place Clause.excluded?_params clauses
  have uploaders := length_filterMap_place Clause.uploader?_params clauses
  rw [← countP_conditions, ← excluded, ← uploaders]
  simp [select, ofClauses]

theorem length_places (clauses : List Clause) :
    clauses.countP (fun c => !c.excluded && !c.isUploader)
      + clauses.countP (fun c => c.excluded || c.isUploader) = clauses.length := by
  rw [List.length_eq_countP_add_countP fun c : Clause => !c.excluded && !c.isUploader]
  congr 2
  funext c
  cases c.excluded <;> cases c.isUploader <;> rfl

theorem params_ofClauses (clauses : List Clause) :
    (ofClauses clauses).statement.params =
      (clauses.filter fun c => !c.excluded && !c.isUploader).flatMap (·.boundTexts)
        ++ (clauses.filter fun c => c.excluded && !c.isUploader).flatMap (·.boundTexts)
        ++ (clauses.filter fun c => c.isUploader).flatMap (·.boundTexts) := by
  rw [params_statement, ← flatMap_filterMap_place Clause.joined?_params,
    ← flatMap_filterMap_place Clause.excluded?_params,
    ← flatMap_filterMap_place Clause.uploader?_params]
  rfl

end Plan

/-- Clauses are assembled without a mismatch of placeholders and parameters. None is left out: those
that must hold are joined, and each of the others is a condition. The statement has as many
placeholders as parameters, and each fragment in it gets its own. The parameters are the texts bound
by the joined clauses, then those bound by the excluded ones, then those bound by the ones on the
uploader, all in the order of the clauses. -/
theorem assemble_aligned (clauses : List Clause) :
    assemble clauses = .ok (Plan.ofClauses clauses).select ∧
    (Plan.ofClauses clauses).select.joins.length =
      clauses.countP (fun c => !c.excluded && !c.isUploader) ∧
    (Plan.ofClauses clauses).select.conditions.length =
      clauses.countP (fun c => c.excluded || c.isUploader) ∧
    (Plan.ofClauses clauses).select.joins.length
      + (Plan.ofClauses clauses).select.conditions.length = clauses.length ∧
    Sql.placeholders (Plan.ofClauses clauses).statement.text =
      (Plan.ofClauses clauses).statement.params.length ∧
    Sql.fill (Plan.ofClauses clauses).statement.text (Plan.ofClauses clauses).statement.params =
      (Plan.ofClauses clauses).select.filled.build.text ∧
    (Plan.ofClauses clauses).statement.params =
      (clauses.filter fun c => !c.excluded && !c.isUploader).flatMap (·.boundTexts)
        ++ (clauses.filter fun c => c.excluded && !c.isUploader).flatMap (·.boundTexts)
        ++ (clauses.filter fun c => c.isUploader).flatMap (·.boundTexts) := by
  have joins := Plan.length_joins_ofClauses clauses
  have conditions := Plan.length_conditions_ofClauses clauses
  have fills := (Plan.ofClauses clauses).select_plain.fills
  refine ⟨assemble_eq clauses, joins, conditions, ?_, fills.balanced, fills.fill_eq,
    Plan.params_ofClauses clauses⟩
  rw [joins, conditions, Plan.length_places]

end TagQuery
