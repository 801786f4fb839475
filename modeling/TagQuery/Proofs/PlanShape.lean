import Mathlib.Data.List.Forall2
import TagQuery.Plan.Compile

/-! The shape of a plan is the plan with every pattern blotted out. The text of its statement is
that of the shape, whatever the patterns are, and the shape of a list of clauses is known from a few
traits of each clause. Main statement: clauses that agree in these traits have statements with the
same text, so nothing that was typed stands in the text itself. -/
namespace TagQuery

namespace Sql.Select

/-- What a join adds to the text, the number in its name aside. -/
def joinWords (j : Join) : List Char × List Char × List Char :=
  (j.fragment.sql, j.column, j.target)

theorem joinText_congr {j k : Join} (h : joinWords j = joinWords k) (index : Nat) :
    joinText j index = joinText k index := by
  obtain ⟨sql, rest⟩ := Prod.mk.inj h
  obtain ⟨column, target⟩ := Prod.mk.inj rest
  rw [joinText, joinText, sql, column, target]

theorem joinsText_congr {js ks : List Join} (h : js.map joinWords = ks.map joinWords) (first : Nat) :
    (js.zipIdx first).flatMap (fun j => joinText j.1 j.2) =
      (ks.zipIdx first).flatMap fun k => joinText k.1 k.2 := by
  induction js generalizing ks first with
  | nil =>
    have none : ks = [] := List.map_eq_nil_iff.mp h.symm
    rw [none]
  | cons j js ih =>
    cases ks with
    | nil => cases h
    | cons k ks =>
      obtain ⟨one, others⟩ := List.cons.inj h
      simp only [List.zipIdx_cons, List.flatMap_cons, joinText_congr one, ih others]

theorem whereText_congr {fs gs : List Fragment} (h : fs.map (·.sql) = gs.map (·.sql)) :
    whereText fs = whereText gs := by
  cases fs with
  | nil =>
    have none : gs = [] := List.map_eq_nil_iff.mp h.symm
    rw [none]
  | cons f fs =>
    cases gs with
    | nil => cases h
    | cons g gs => simp only [whereText, h]

theorem text_congr {s t : Select} (head : s.head = t.head)
    (joins : s.joins.map joinWords = t.joins.map joinWords)
    (conditions : s.conditions.map (·.sql) = t.conditions.map (·.sql)) (order : s.order = t.order) :
    s.text = t.text := by
  rw [text, text, head, joinsText_congr joins, whereText_congr conditions, order]

end Sql.Select

section Shape

variable {α β : Type}

theorem namesText_map (f : α → β) (names : List α) : namesText (names.map f) = namesText names := by
  rw [namesText, namesText, List.map_map]
  rfl

theorem SubQuery.sql_map (f : α → β) (q : SubQuery α) : (q.map f).sql = q.sql := by
  cases q with
  | tagged space names =>
    cases names with
    | none => rfl
    | some names => simp only [map, sql, Option.map_some, namesText_map]
  | free names title => simp only [map, sql, namesText_map]

theorem UploaderTest.sql_map (f : α → β) (t : UploaderTest α) : (t.map f).sql = t.sql := by
  cases t <;> rfl

def Plan.shape (p : Plan α) : Plan Unit :=
  p.map fun _ => ()

end Shape

theorem Plan.text_of_shape {p q : Plan (List Char)} (h : p.shape = q.shape) :
    p.statement.text = q.statement.text := by
  obtain ⟨joined, excluded, uploaders⟩ := Plan.mk.inj h
  have joinedSql : p.joined.map (·.sql) = q.joined.map (·.sql) := by
    simpa [SubQuery.sql_map, Function.comp_def] using congrArg (List.map SubQuery.sql) joined
  have excludedSql : p.excluded.map (·.sql) = q.excluded.map (·.sql) := by
    simpa [SubQuery.sql_map, Function.comp_def] using congrArg (List.map SubQuery.sql) excluded
  have uploadersSql : p.uploaders.map (·.sql) = q.uploaders.map (·.sql) := by
    simpa [UploaderTest.sql_map, Function.comp_def] using
      congrArg (List.map UploaderTest.sql) uploaders
  apply Sql.Select.text_congr
  · rfl
  · have words := congrArg (List.map fun sql => (sql, foundColumn, metadataWork)) joinedSql
    simpa [select, Sql.Select.joinWords, SubQuery.fragment, Function.comp_def] using words
  · have wrapped := congrArg (List.map fun sql => SubQuery.exclusionHead ++ sql ++ [')']) excludedSql
    simp only [List.map_map, Function.comp_def] at wrapped
    simp only [select, List.map_append, List.map_map, Function.comp_def, SubQuery.exclusion,
      UploaderTest.fragment, wrapped, uploadersSql]
  · rfl

namespace Clause

def isTag (c : Clause) : Bool :=
  match c.subject with
  | .tag _ _ => true
  | .text _ => false

def phrase? (c : Clause) : Option Phrase :=
  match c.subject with
  | .tag _ phrase => phrase
  | .text phrase => some phrase

def nameCount (c : Clause) : Nat :=
  match c.phrase? with
  | some phrase => if c.exact then 1 else phrase.lenientPatterns.length
  | none => 0

/-- Two clauses that may differ in their namespaces and phrases, but not in the traits that the shape
of a plan shows. -/
structure Alike (c d : Clause) : Prop where
  isTag : c.isTag = d.isTag
  excluded : c.excluded = d.excluded
  isUploader : c.isUploader = d.isUploader
  phrase : c.phrase?.isSome = d.phrase?.isSome
  names : c.isUploader = false → c.nameCount = d.nameCount

end Clause

/-- Blotting out leaves of some patterns only their number. -/
theorem blot_eq {xs ys : List (List Char)} (h : xs.length = ys.length) :
    xs.map (fun _ => ()) = ys.map fun _ => () := by
  rw [List.map_const', List.map_const', h]

namespace Clause

theorem length_namePatterns {c : Clause} {p : Phrase} (h : c.phrase? = some p) :
    (p.namePatterns c.exact).length = c.nameCount := by
  rw [nameCount, h, Phrase.namePatterns]
  cases c.exact <;> rfl

theorem subject_of_uploader {c : Clause} (h : c.isUploader = true) :
    c.subject = .tag Namespace.uploader c.phrase? := by
  unfold isUploader at h
  unfold phrase?
  cases subject : c.subject with
  | text p => simp [subject] at h
  | tag space phrase =>
    have uploader : space = Namespace.uploader := by simpa [subject] using h
    rw [uploader]

theorem space_ne_uploader {c : Clause} {space : List Char} {phrase : Option Phrase}
    (h : c.isUploader = false) (subject : c.subject = .tag space phrase) :
    space ≠ Namespace.uploader := by
  simpa [isUploader, subject] using h

theorem uploader?_eq (c : Clause) :
    c.uploader? = if c.isUploader then some (c.uploaderTest c.phrase?) else none := by
  cases subject : c.subject with
  | text p => simp [uploader?, isUploader, subject]
  | tag space phrase => simp [uploader?, isUploader, phrase?, subject]

namespace Alike

variable {c d : Clause}

theorem names_shape (h : c.Alike d) (tags : c.isUploader = false) {p p' : Phrase}
    (hp : c.phrase? = some p) (hp' : d.phrase? = some p') :
    (p.namePatterns c.exact).map (fun _ => ()) = (p'.namePatterns d.exact).map fun _ => () := by
  apply blot_eq
  rw [length_namePatterns hp, length_namePatterns hp', h.names tags]

theorem subQuery_shape (h : c.Alike d) (tags : c.isUploader = false) :
    c.subQuery.map (fun _ => ()) = d.subQuery.map fun _ => () := by
  have kind := h.isTag
  have phrases := h.phrase
  have names := @names_shape c d h tags
  cases hc : c.subject with
  | text p =>
    cases hd : d.subject with
    | text p' =>
      simp only [phrase?, hc, hd] at names
      simp only [subQuery, hc, hd, SubQuery.ofText, SubQuery.map, names rfl rfl]
    | tag space' phrase' => simp [Clause.isTag, hc, hd] at kind
  | tag space phrase =>
    cases hd : d.subject with
    | text p' => simp [Clause.isTag, hc, hd] at kind
    | tag space' phrase' =>
      simp only [phrase?, hc, hd] at names phrases
      simp only [subQuery, hc, hd, SubQuery.ofTag, SubQuery.map]
      -- The namespaces are blotted out; the names are there on both sides or on neither.
      cases phrase with
      | none =>
        cases phrase' with
        | none => rfl
        | some p' => cases phrases
      | some p =>
        cases phrase' with
        | none => cases phrases
        | some p' => simp only [Option.map_some, names rfl rfl]

theorem joined_shape (h : c.Alike d) :
    c.joined?.map (·.map fun _ => ()) = d.joined?.map (·.map fun _ => ()) := by
  unfold joined?
  rw [← h.isUploader, ← h.excluded]
  cases tags : c.isUploader with
  | true => rfl
  | false =>
    cases c.excluded with
    | true => rfl
    | false => exact congrArg some (h.subQuery_shape tags)

theorem excluded_shape (h : c.Alike d) :
    c.excluded?.map (·.map fun _ => ()) = d.excluded?.map (·.map fun _ => ()) := by
  unfold excluded?
  rw [← h.isUploader, ← h.excluded]
  cases tags : c.isUploader with
  | true => rfl
  | false =>
    cases c.excluded with
    | true => exact congrArg some (h.subQuery_shape tags)
    | false => rfl

theorem uploader_shape (h : c.Alike d) :
    c.uploader?.map (·.map fun _ => ()) = d.uploader?.map (·.map fun _ => ()) := by
  rw [uploader?_eq, uploader?_eq, ← h.isUploader]
  cases c.isUploader with
  | false => rfl
  | true =>
    have phrases := h.phrase
    have test : (c.uploaderTest c.phrase?).map (fun _ => ()) =
        (d.uploaderTest d.phrase?).map fun _ => () := by
      unfold uploaderTest
      rw [← h.excluded]
      cases hc : c.phrase? with
      | none =>
        cases hd : d.phrase? with
        | none => cases c.excluded <;> rfl
        | some p' => simp [hc, hd] at phrases
      | some p =>
        cases hd : d.phrase? with
        | none => simp [hc, hd] at phrases
        | some p' => cases c.excluded <;> rfl
    exact congrArg some test

end Alike

end Clause

/-- The parts of two plans have the same shape if they come from clauses that have it one by one. -/
theorem filterMap_shape {σ τ : Type} {part? : Clause → Option σ} {blot : σ → τ} {cs ds : List Clause}
    (h : List.Forall₂ Clause.Alike cs ds)
    (each : ∀ c d, c.Alike d → (part? c).map blot = (part? d).map blot) :
    (cs.filterMap part?).map blot = (ds.filterMap part?).map blot := by
  rw [List.map_filterMap, List.map_filterMap]
  induction h with
  | nil => rfl
  | cons alike _ ih => rw [List.filterMap_cons, List.filterMap_cons, each _ _ alike, ih]

theorem Plan.shape_ofClauses {cs ds : List Clause} (h : List.Forall₂ Clause.Alike cs ds) :
    (Plan.ofClauses cs).shape = (Plan.ofClauses ds).shape := by
  have joined := filterMap_shape h fun c d alike => alike.joined_shape
  have excluded := filterMap_shape h fun c d alike => alike.excluded_shape
  have uploaders := filterMap_shape h fun c d alike => alike.uploader_shape
  rw [shape, shape, map, map, ofClauses, ofClauses, joined, excluded, uploaders]

/-- Nothing typed reaches the text of a statement: it is the same for any two lists of clauses that
agree, place by place, in whether they ask for a tag, are excluded, are about the uploader and have a
phrase, and in how many patterns they compare with tag names. -/
theorem Plan.text_of_alike {cs ds : List Clause} (h : List.Forall₂ Clause.Alike cs ds) :
    (Plan.ofClauses cs).statement.text = (Plan.ofClauses ds).statement.text :=
  text_of_shape (shape_ofClauses h)

private def harmless : List Clause :=
  [⟨.text ⟨[.lit ['a', ' ', 'b']], by decide⟩, false, false⟩,
    ⟨.tag ['f'] (some ⟨[.lit ['c'], .one], by decide⟩), true, false⟩,
    ⟨.tag Namespace.uploader (some ⟨[.lit ['d']], by decide⟩), false, false⟩]

/-- The same with quotes, question marks and brackets in the phrases, and other wildcards. -/
private def hostile : List Clause :=
  [⟨.text ⟨[.many, .lit ['"', ')', '?']], by decide⟩, false, false⟩,
    ⟨.tag ['\\', '?', '"'] (some ⟨[.lit ['x', ' ', '?', ';', 'y']], by decide⟩), true, true⟩,
    ⟨.tag Namespace.uploader (some ⟨[.lit ['"', ' ', '?', ' ', '-', '-']], by decide⟩), false, true⟩]

theorem Plan.text_of_alike_hostile :
    List.Forall₂ Clause.Alike harmless hostile ∧
      (Plan.ofClauses harmless).statement.text = (Plan.ofClauses hostile).statement.text := by
  have alike : List.Forall₂ Clause.Alike harmless hostile := by
    refine .cons ⟨?_, ?_, ?_, ?_, ?_⟩ (.cons ⟨?_, ?_, ?_, ?_, ?_⟩ (.cons ⟨?_, ?_, ?_, ?_, ?_⟩ .nil))
    all_goals decide
  exact ⟨alike, Plan.text_of_alike alike⟩

end TagQuery
