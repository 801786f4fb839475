import TagQuery.Sql.Select

/-! A select is put together from fragments that each own their parameters. Its text comes from one
pass over them and its parameters from another. Here the two are kept together: a text is related to
its parameters and to what it reads when they are put in, and the relation goes through every way in
which texts are joined. Main statement: however the calls on a select are mixed, filling the built
text is the same as filling every fragment on its own before building. -/
namespace TagQuery.Sql

/-- The text with its placeholders replaced from left to right by the parameters. A parameter is not
looked at again, and a placeholder without one stays. -/
def fill : List Char → List (List Char) → List Char
  | [], _ => []
  | c :: text, params =>
    if c = '?' then
      match params with
      | [] => c :: fill text []
      | param :: params => param ++ fill text params
    else c :: fill text params

theorem fill_append {a : List Char} {params : List (List Char)}
    (h : placeholders a = params.length) (b : List Char) (rest : List (List Char)) :
    fill (a ++ b) (params ++ rest) = fill a params ++ fill b rest := by
  induction a generalizing params with
  | nil =>
    have none : params = [] := List.length_eq_zero_iff.mp h.symm
    rw [none]
    rfl
  | cons c a ih =>
    by_cases mark : c = '?'
    · -- The first parameter is used up here, so the counts behind it agree again.
      subst mark
      cases params with
      | nil => simp [placeholders] at h
      | cons param params =>
        have behind : placeholders a = params.length := by simpa [placeholders] using h
        simp [fill, ih behind]
    · have behind : placeholders a = params.length := by
        rw [← h, placeholders_cons_of_ne mark]
      simp [fill, mark, ih behind]

theorem fill_of_plain {text : List Char} (h : '?' ∉ text) : fill text [] = text := by
  induction text with
  | nil => rfl
  | cons c text ih =>
    have mark : c ≠ '?' := List.ne_of_not_mem_cons h ∘ Eq.symm
    rw [fill, if_neg mark, ih (List.not_mem_of_not_mem_cons h)]

/-- The text has one placeholder for each of the parameters, and reads `filled` with them put in. -/
structure Fills (text : List Char) (params : List (List Char)) (filled : List Char) : Prop where
  balanced : placeholders text = params.length
  fill_eq : fill text params = filled

theorem Fills.plain {text : List Char} (h : '?' ∉ text) : Fills text [] text :=
  ⟨List.count_eq_zero.mpr h, fill_of_plain h⟩

theorem Fills.append {a b filled filled' : List Char} {params params' : List (List Char)}
    (h : Fills a params filled) (h' : Fills b params' filled') :
    Fills (a ++ b) (params ++ params') (filled ++ filled') := by
  constructor
  · rw [placeholders_append, h.balanced, h'.balanced, List.length_append]
  · rw [fill_append h.balanced, h.fill_eq, h'.fill_eq]

section Items

variable {α : Type} {text filled : α → List Char} {params : α → List (List Char)} {items : List α}

theorem Fills.flatMap (h : ∀ item ∈ items, Fills (text item) (params item) (filled item)) :
    Fills (items.flatMap text) (items.flatMap params) (items.flatMap filled) := by
  induction items with
  | nil => exact .plain List.not_mem_nil
  | cons item items ih =>
    obtain ⟨first, others⟩ := List.forall_mem_cons.mp h
    exact first.append (ih others)

theorem Fills.separated {sep : List Char} (hsep : '?' ∉ sep)
    (h : ∀ item ∈ items, Fills (text item) (params item) (filled item)) :
    Fills (separated sep (items.map text)) (items.flatMap params)
      (separated sep (items.map filled)) := by
  cases items with
  | nil => exact .plain List.not_mem_nil
  | cons item items =>
    obtain ⟨first, others⟩ := List.forall_mem_cons.mp h
    have behind : Fills (items.flatMap (sep ++ text ·)) (items.flatMap params)
        (items.flatMap (sep ++ filled ·)) :=
      .flatMap fun item hi => (Fills.plain hsep).append (others item hi)
    simpa [Sql.separated, List.flatMap_map] using first.append behind

end Items

namespace Fragment

/-- Every fragment is made from its own text and parameters: the fragments are what passes the
check. -/
theorem make_self (f : Fragment) : make f.sql f.params = .ok f :=
  dif_pos f.balanced

/-- The fragment with its texts put in. A question mark in one of them stands for itself, so it is
bound to itself. -/
def filled (f : Fragment) : Fragment where
  sql := fill f.sql f.params
  params := List.replicate (placeholders (fill f.sql f.params)) ['?']
  balanced := List.length_replicate.symm

theorem fills (f : Fragment) : Fills f.sql f.params f.filled.sql :=
  ⟨f.balanced, rfl⟩

end Fragment

def Join.filled (j : Join) : Join :=
  { j with fragment := j.fragment.filled }

namespace Select

def filled (s : Select) : Select :=
  { s with joins := s.joins.map (·.filled), conditions := s.conditions.map (·.filled) }

/-- All placeholders of the select are those of its fragments. -/
structure Plain (s : Select) : Prop where
  head : '?' ∉ s.head
  joins : ∀ j ∈ s.joins, '?' ∉ j.column ∧ '?' ∉ j.target
  order : ∀ column ∈ s.order, '?' ∉ column

theorem joinName_plain (index : Nat) : '?' ∉ joinName index := by
  rw [joinName, List.mem_cons, not_or]
  refine ⟨by decide, fun digit => ?_⟩
  exact absurd (Nat.isDigit_of_mem_toDigits (by decide) (by decide) digit) (by decide)

theorem joinHead_plain : '?' ∉ joinHead := of_literal (P := ('?' ∉ ·)) (by decide)
theorem onText_plain : '?' ∉ onText := of_literal (P := ('?' ∉ ·)) (by decide)
theorem equalsText_plain : '?' ∉ equalsText := of_literal (P := ('?' ∉ ·)) (by decide)
theorem whereHead_plain : '?' ∉ whereHead := of_literal (P := ('?' ∉ ·)) (by decide)
theorem whereAnd_plain : '?' ∉ whereAnd := of_literal (P := ('?' ∉ ·)) (by decide)
theorem orderHead_plain : '?' ∉ orderHead := of_literal (P := ('?' ∉ ·)) (by decide)

theorem joinText_fills {j : Join} (h : '?' ∉ j.column ∧ '?' ∉ j.target) (index : Nat) :
    Fills (joinText j index) j.fragment.params (joinText j.filled index) := by
  have behind : '?' ∉ ' ' :: joinName index ++ onText ++ joinName index
      ++ '.' :: j.column ++ equalsText ++ j.target := by
    simp [joinName_plain, onText_plain, equalsText_plain, h]
  have whole := ((Fills.plain joinHead_plain).append j.fragment.fills).append (.plain behind)
  simpa [joinText, Join.filled] using whole

/-- The numbers in the names of the joins are the same before and after filling. -/
theorem joins_fills {s : Select} (h : s.Plain) :
    Fills (s.joins.zipIdx.flatMap fun j => joinText j.1 j.2) (s.joins.flatMap (·.fragment.params))
      (s.filled.joins.zipIdx.flatMap fun j => joinText j.1 j.2) := by
  have each : ∀ j ∈ s.joins.zipIdx,
      Fills (joinText j.1 j.2) j.1.fragment.params (joinText j.1.filled j.2) := by
    intro j hj
    exact joinText_fills (h.joins j.1 (List.fst_mem_of_mem_zipIdx hj)) j.2
  have params : s.joins.zipIdx.flatMap (·.1.fragment.params) =
      s.joins.flatMap (·.fragment.params) := by
    rw [← List.flatMap_map Prod.fst fun j : Join => j.fragment.params, List.zipIdx_map_fst]
  have filled : s.filled.joins.zipIdx.flatMap (fun j => joinText j.1 j.2) =
      s.joins.zipIdx.flatMap fun j => joinText j.1.filled j.2 := by
    rw [Select.filled, List.zipIdx_map, List.flatMap_map]
    rfl
  rw [← params, filled]
  exact .flatMap each

theorem whereText_fills (fs : List Fragment) :
    Fills (whereText fs) (fs.flatMap (·.params)) (whereText (fs.map (·.filled))) := by
  cases fs with
  | nil => exact .plain List.not_mem_nil
  | cons f fs =>
    have tests : Fills (separated whereAnd ((f :: fs).map (·.sql))) ((f :: fs).flatMap (·.params))
        (separated whereAnd ((f :: fs).map (·.filled.sql))) :=
      .separated whereAnd_plain fun f _ => f.fills
    simpa [whereText, Function.comp_def] using (Fills.plain whereHead_plain).append tests

theorem orderText_plain {order : Option (List Char)} (h : ∀ column ∈ order, '?' ∉ column) :
    '?' ∉ orderText order := by
  cases order with
  | none => exact List.not_mem_nil
  | some column =>
    rw [orderText, List.mem_append, not_or]
    exact ⟨orderHead_plain, h column rfl⟩

/-- A built select has its parameters in the order of its placeholders, fragment by fragment. -/
theorem Plain.fills {s : Select} (h : s.Plain) : Fills s.text s.params s.filled.text := by
  have whole := (((Fills.plain h.head).append (joins_fills h)).append
    (whereText_fills s.conditions)).append (.plain (orderText_plain h.order))
  simpa [text, Select.params, filled] using whole

end Select

inductive Call where
  | join (join : Join)
  | condition (fragment : Fragment)
  | order (column : List Char)
  deriving DecidableEq

namespace Call

def join? : Call → Option Join
  | .join j => some j
  | _ => none

def condition? : Call → Option Fragment
  | .condition f => some f
  | _ => none

def order? : Call → Option (List Char)
  | .order column => some column
  | _ => none

def filled : Call → Call
  | .join j => .join j.filled
  | .condition f => .condition f.filled
  | .order column => .order column

end Call

namespace Select

def call (s : Select) : Call → Select
  | .join j => s.addJoin j.fragment j.column j.target
  | .condition f => s.addCondition f
  | .order column => s.orderedBy column

def run (s : Select) (calls : List Call) : Select :=
  calls.foldl call s

/-- Joins and conditions are kept in call order, each among its own kind, and the last order wins. -/
theorem run_eq (s : Select) (calls : List Call) :
    s.run calls =
      { head := s.head
        joins := s.joins ++ calls.filterMap Call.join?
        conditions := s.conditions ++ calls.filterMap Call.condition?
        order := (calls.filterMap Call.order?).getLast?.or s.order } := by
  induction calls generalizing s with
  | nil => simp [run]
  | cons c calls ih =>
    have step : s.run (c :: calls) = (s.call c).run calls := rfl
    rw [step, ih]
    cases c with
    | join j => simp [call, addJoin, List.filterMap_cons, Call.join?, Call.condition?, Call.order?]
    | condition f =>
      simp [call, addCondition, List.filterMap_cons, Call.join?, Call.condition?, Call.order?]
    | order column =>
      simp [call, orderedBy, List.filterMap_cons, Call.join?, Call.condition?, Call.order?,
        List.getLast?_cons]

theorem filled_call (s : Select) (c : Call) : (s.call c).filled = s.filled.call c.filled := by
  cases c with
  | join j => simp [call, addJoin, filled, Call.filled, Join.filled]
  | condition f => simp [call, addCondition, filled, Call.filled]
  | order column => rfl

theorem filled_run (s : Select) (calls : List Call) :
    (s.run calls).filled = s.filled.run (calls.map Call.filled) := by
  induction calls generalizing s with
  | nil => rfl
  | cons c calls ih =>
    have step : s.run (c :: calls) = (s.call c).run calls := rfl
    rw [step, ih, filled_call]
    rfl

theorem params_run (s : Select) (calls : List Call) :
    (s.run calls).params =
      (s.joins ++ calls.filterMap Call.join?).flatMap (·.fragment.params)
        ++ (s.conditions ++ calls.filterMap Call.condition?).flatMap (·.params) := by
  rw [run_eq, params]

/-- Whatever calls are made on a select, its parameters are those of the joins in call order and then
those of the conditions in call order. If no placeholder stands outside the fragments, there is one
placeholder for each parameter, and putting the parameters into the built text is the same as putting
those of each fragment into that fragment before the calls are made. Calls that differ only in how
joins, conditions and orders are mixed, or in orders that are given up, build the same statement. -/
theorem build_run (s : Select) (calls : List Call) :
    (s.run calls).build.params =
      (s.joins ++ calls.filterMap Call.join?).flatMap (·.fragment.params)
        ++ (s.conditions ++ calls.filterMap Call.condition?).flatMap (·.params) ∧
    ((s.run calls).Plain →
      placeholders (s.run calls).build.text = (s.run calls).build.params.length ∧
      fill (s.run calls).build.text (s.run calls).build.params =
        (s.filled.run (calls.map Call.filled)).build.text) ∧
    ∀ calls' : List Call, calls.filterMap Call.join? = calls'.filterMap Call.join? →
      calls.filterMap Call.condition? = calls'.filterMap Call.condition? →
      (calls.filterMap Call.order?).getLast? = (calls'.filterMap Call.order?).getLast? →
      (s.run calls).build = (s.run calls').build := by
  refine ⟨params_run s calls, fun plain => ?_, fun calls' joins conditions order => ?_⟩
  · rw [← filled_run]
    exact ⟨plain.fills.balanced, plain.fills.fill_eq⟩
  · rw [run_eq, run_eq, joins, conditions, order]

private def empty : Select := { head := ['s'] }

private def pairJoin : Join :=
  ⟨⟨['(', '?', ',', '?', ')'], [['1'], ['2']], by decide⟩, ['m'], ['t']⟩

/-- A condition bound to a text that has a question mark in it. -/
private def askTest : Fragment := ⟨['a', '=', '?'], [['w', '?']], by decide⟩

private def otherTest : Fragment := ⟨['b', '=', '?'], [['v']], by decide⟩

private def mixed : List Call :=
  [.condition askTest, .order ['x', '?'], .join pairJoin, .condition otherTest, .order ['t']]

private def unmixed : List Call :=
  [.join pairJoin, .condition askTest, .condition otherTest, .order ['t']]

theorem build_run_mixed :
    (empty.run mixed).Plain ∧
      (empty.run mixed).build.params = [['1'], ['2'], ['w', '?'], ['v']] ∧
      placeholders (empty.run mixed).build.text = 4 ∧
      fill (empty.run mixed).build.text [['1'], ['2'], ['w', '?'], ['v']] =
        (empty.run (mixed.map Call.filled)).build.text ∧
      (empty.run mixed).build = (empty.run unmixed).build := by
  obtain ⟨params, filling, mixing⟩ := build_run empty mixed
  have plain : (empty.run mixed).Plain := ⟨by decide, by decide, by decide⟩
  have bound : (empty.run mixed).build.params = [['1'], ['2'], ['w', '?'], ['v']] := params
  obtain ⟨balanced, filled⟩ := filling plain
  rw [bound] at balanced filled
  exact ⟨plain, bound, balanced, filled, mixing unmixed (by decide) (by decide) (by decide)⟩

end Select

end TagQuery.Sql
