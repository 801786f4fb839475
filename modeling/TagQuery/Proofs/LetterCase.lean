import TagQuery.Proofs.Matching
import TagQuery.Proofs.SetAlgebra

/-! Lines are lowercased before they are read, and values are compared without regard to the case of
ASCII letters. Between the two, a capital sigma looks at the letters around it, short names are
looked up, and a namespace is compared with `uploader` letter by letter. Main statement: none of
this can tell two lines, or two catalogues, that differ only in the case of ASCII letters. -/
namespace TagQuery

namespace Text

/-- Only capitals have another letter as their lower case, which stands 32 places behind. -/
theorem toLower_cases (c : Char) :
    c.toLower = c ∨ 0x41 ≤ c.toNat ∧ c.toNat ≤ 0x5A ∧ c.toLower.toNat = c.toNat + 32 := by
  by_cases capital : c.val ≥ 'A'.val ∧ c.val ≤ 'Z'.val
  · have lower : 'A'.toNat ≤ c.toNat := UInt32.le_iff_toNat_le.mp capital.1
    have upper : c.toNat ≤ 'Z'.toNat := UInt32.le_iff_toNat_le.mp capital.2
    have first : 'A'.toNat = 0x41 := rfl
    have last : 'Z'.toNat = 0x5A := rfl
    have moved : c.toLower.toNat = (c.toNat + 32) % 2 ^ 32 :=
      (congrArg Char.toNat (dif_pos capital)).trans (UInt32.toNat_add c.val 32)
    refine .inr ⟨by omega, by omega, ?_⟩
    rw [moved]
    omega
  · exact .inl (dif_neg capital)

theorem toLower_of_not_ascii {c : Char} (h : ¬ c.toNat < 0x80) : c.toLower = c := by
  rcases toLower_cases c with same | ⟨-, upper, -⟩
  · exact same
  · omega

/-- What does not see the case of the 128 ASCII characters does not see it at all. -/
theorem toLower_of_ascii {β : Type} [BEq β] [LawfulBEq β] (f : Char → β)
    (checked : (List.range 0x80).all (fun n => f (Char.ofNat n).toLower == f (Char.ofNat n)) = true)
    (c : Char) : f c.toLower = f c := by
  rcases toLower_cases c with same | ⟨-, upper, -⟩
  · rw [same]
  · have same := List.all_eq_true.mp checked c.toNat (List.mem_range.mpr (by omega))
    rw [Char.ofNat_toNat] at same
    exact eq_of_beq same

theorem isCased_toLower (c : Char) : isCased c.toLower = isCased c := by
  have capitals : (0x41, 0x5A) ∈ casedIntervals := by decide
  have smalls : (0x61, 0x7A) ∈ casedIntervals := by decide
  rcases toLower_cases c with same | ⟨lower, upper, moved⟩
  · rw [same]
  · have cased : isCased c = true := by
      refine List.any_eq_true.mpr ⟨_, capitals, ?_⟩
      simp [lower, upper]
    have cased' : isCased c.toLower = true := by
      refine List.any_eq_true.mpr ⟨_, smalls, ?_⟩
      rw [moved]
      simp only [Bool.and_eq_true, decide_eq_true_eq]
      omega
    rw [cased, cased']

theorem isCaseIgnorable_toLower (c : Char) : isCaseIgnorable c.toLower = isCaseIgnorable c := by
  have capitals : clearOf caseIgnorableIntervals 0x41 0x5A = true := by decide +kernel
  have smalls : clearOf caseIgnorableIntervals 0x61 0x7A = true := by decide +kernel
  rcases toLower_cases c with same | ⟨lower, upper, moved⟩
  · rw [same]
  · have kept : isCaseIgnorable c = false := not_inIntervals_of_clearOf capitals lower upper
    have kept' : isCaseIgnorable c.toLower = false :=
      not_inIntervals_of_clearOf smalls (by omega) (by omega)
    rw [kept, kept']

theorem lowerChar_toLower (c : Char) : lowerChar c.toLower = lowerChar c :=
  toLower_of_ascii lowerChar (by decide) c

theorem isSigma_toLower (c : Char) : (c.toLower == 'Σ') = (c == 'Σ') :=
  toLower_of_ascii (· == 'Σ') (by decide) c

theorem leadsCased_map_toLower (cs : List Char) :
    leadsCased (cs.map Char.toLower) = leadsCased cs := by
  have skipped : isCaseIgnorable ∘ Char.toLower = isCaseIgnorable := by
    funext c
    exact isCaseIgnorable_toLower c
  unfold leadsCased
  rw [List.dropWhile_map, skipped]
  cases cs.dropWhile isCaseIgnorable with
  | nil => rfl
  | cons c cs => exact isCased_toLower c

theorem lowerAt_map_toLower (before : List Char) (c : Char) (after : List Char) :
    lowerAt (before.map Char.toLower) c.toLower (after.map Char.toLower) =
      lowerAt before c after := by
  unfold lowerAt
  rw [isSigma_toLower, leadsCased_map_toLower, leadsCased_map_toLower, lowerChar_toLower]

theorem lowered_map_toLower (before text : List Char) :
    lowered (before.map Char.toLower) (text.map Char.toLower) = lowered before text := by
  induction text generalizing before with
  | nil => rfl
  | cons c after ih =>
    have rest := ih (c :: before)
    rw [List.map_cons] at rest
    rw [List.map_cons, lowered, lowered, lowerAt_map_toLower, rest]

/-- Texts that differ only in the case of ASCII letters have one lowercase. -/
theorem lowercase_eq_of_eqIgnoringAsciiCase {a b : List Char}
    (h : eqIgnoringAsciiCase a b = true) : lowercase a = lowercase b := by
  have same : a.map Char.toLower = b.map Char.toLower := eq_of_beq h
  calc lowercase a = lowered [] (a.map Char.toLower) := by
        rw [lowercase_eq_lowered]
        exact (lowered_map_toLower [] a).symm
    _ = lowered [] (b.map Char.toLower) := by rw [same]
    _ = lowercase b := by
        rw [lowercase_eq_lowered]
        exact lowered_map_toLower [] b

end Text

namespace Like

theorem key_toLower (c : Char) : key c.toLower = key c :=
  Text.toLower_of_ascii key (by decide) c

theorem isNul_toLower (c : Char) : (c.toLower != Char.ofNat 0) = (c != Char.ofNat 0) :=
  Text.toLower_of_ascii (· != Char.ofNat 0) (by decide) c

theorem scan_map {rest : List Char → Outcome} (f : Char → Char)
    (h : ∀ value, rest (value.map f) = rest value) (value : List Char) :
    scan rest (value.map f) = scan rest value := by
  induction value with
  | nil => rfl
  | cons c value ih =>
    have whole := h (c :: value)
    rw [List.map_cons] at whole
    rw [List.map_cons, scan, scan, whole, ih]

theorem takeOne_map {fits : Char → Bool} {rest : List Char → Outcome} (f : Char → Char)
    (hf : ∀ c, fits (f c) = fits c) (h : ∀ value, rest (value.map f) = rest value)
    (value : List Char) : takeOne fits rest (value.map f) = takeOne fits rest value := by
  cases value with
  | nil => rfl
  | cons c value => rw [List.map_cons, takeOne, takeOne, hf, h]

theorem run_map_toLower (pattern : List Token) (value : List Char) :
    run pattern (value.map Char.toLower) = run pattern value := by
  induction pattern generalizing value with
  | nil => cases value <;> rfl
  | cons t pattern ih =>
    cases t with
    | many => exact scan_map Char.toLower ih value
    | one =>
      rw [run_one]
      exact takeOne_map Char.toLower (fun _ => rfl) ih value
    | char a =>
      rw [run_char]
      refine takeOne_map Char.toLower (fun c => ?_) ih value
      rw [key_toLower]
    | never => cases value <;> rfl

theorem holds_map_toLower (pattern value : List Char) :
    holds pattern (value.map Char.toLower) = holds pattern value := by
  have cut : upToNul (value.map Char.toLower) = (upToNul value).map Char.toLower := by
    unfold upToNul
    rw [List.takeWhile_map]
    congr 2
    funext c
    exact isNul_toLower c
  rw [holds, holds, cut, run_map_toLower]

end Like

def MetadataRow.caseless (row : MetadataRow) : MetadataRow :=
  { row with uploader := row.uploader.map (·.map Char.toLower) }

def TagRow.caseless (row : TagRow) : TagRow :=
  { row with
    space := row.space.map (·.map Char.toLower)
    name := row.name.map Char.toLower }

def TitleRow.caseless (row : TitleRow) : TitleRow :=
  { row with title := row.title.map Char.toLower }

def Metadata.caseless (m : Metadata) : Metadata :=
  ⟨m.rows.map (·.caseless), List.pairwise_map.mpr m.ascending⟩

/-- The catalogue with the ASCII letters of namespaces, names, titles and uploaders in lower case.
Two catalogues differ only in the case of such letters if this makes them one. -/
def Catalogue.caseless (c : Catalogue) : Catalogue :=
  { c with
    metadata := c.metadata.map (·.caseless)
    tags := c.tags.map (·.map (·.caseless))
    titles := c.titles.map (·.map (·.caseless)) }

theorem tryLike_map_toLower (pattern value : List Char) :
    tryLike pattern (value.map Char.toLower) = tryLike pattern value := by
  rw [tryLike, tryLike, Like.holds_map_toLower]

theorem anyLike_map_toLower (value : List Char) (patterns : List (List Char)) :
    anyLike (value.map Char.toLower) patterns = anyLike value patterns := by
  induction patterns with
  | nil => rfl
  | cons p patterns ih => rw [anyLike, anyLike, tryLike_map_toLower, ih]

/-- Rows may be changed where neither the test nor the work looks. -/
theorem worksWhere_map {ρ : Type} {work : ρ → Int} {test : ρ → Except SearchFault Bool} (f : ρ → ρ)
    (hw : ∀ row, work (f row) = work row) (ht : ∀ row, test (f row) = test row) (rows : List ρ) :
    worksWhere work test (rows.map f) = worksWhere work test rows := by
  induction rows with
  | nil => rfl
  | cons row rows ih => rw [List.map_cons, worksWhere, worksWhere, ih, hw, ht]

namespace SubQuery

theorem testTag_caseless (space : List Char) (names : Option (List (List Char))) (row : TagRow) :
    testTag space names row.caseless = testTag space names row := by
  cases present : row.space with
  | none => simp [testTag, TagRow.caseless, present]
  | some value =>
    have present' : row.caseless.space = some (value.map Char.toLower) := by
      simp [TagRow.caseless, present]
    rw [testTag_of_space names present, testTag_of_space names present', tryLike_map_toLower]
    cases names with
    | none => rfl
    | some names => exact congrArg (andThen _) (anyLike_map_toLower row.name names)

theorem works_caseless (tags : List TagRow) (titles : List TitleRow) (q : SubQuery (List Char)) :
    q.works (tags.map (·.caseless)) (titles.map (·.caseless)) = q.works tags titles := by
  cases q with
  | tagged space names =>
    exact worksWhere_map TagRow.caseless (fun _ => rfl) (testTag_caseless space names) tags
  | free names title =>
    have byTag : worksWhere (·.work) (fun row => anyLike row.name names) (tags.map (·.caseless)) =
        worksWhere (·.work) (fun row => anyLike row.name names) tags :=
      worksWhere_map TagRow.caseless (fun _ => rfl)
        (fun row => anyLike_map_toLower row.name names) tags
    have byTitle : worksWhere (·.work) (fun row => tryLike title row.title)
        (titles.map (·.caseless)) =
        worksWhere (·.work) (fun row => tryLike title row.title) titles :=
      worksWhere_map TitleRow.caseless (fun _ => rfl)
        (fun row => tryLike_map_toLower title row.title) titles
    rw [works, works, byTag, byTitle]

end SubQuery

theorem UploaderTest.test_caseless (row : MetadataRow) (t : UploaderTest (List Char)) :
    t.test row.caseless = t.test row := by
  cases t with
  | present | absent => simp [test, MetadataRow.caseless]
  | like pattern | unlike pattern =>
    cases uploader : row.uploader with
    | none => simp [test, MetadataRow.caseless, uploader]
    | some name => simp [test, MetadataRow.caseless, uploader, tryLike_map_toLower]

namespace Plan

theorem allWorks_caseless (tags : List TagRow) (titles : List TitleRow)
    (qs : List (SubQuery (List Char))) :
    allWorks (tags.map (·.caseless)) (titles.map (·.caseless)) qs = allWorks tags titles qs := by
  induction qs with
  | nil => rfl
  | cons q qs ih => rw [allWorks, allWorks, SubQuery.works_caseless, ih]

theorem testRow_caseless (leading : List (List Int))
    (excluded following : List (Except SearchFault (List Int)))
    (uploaders : List (UploaderTest (List Char))) (row : MetadataRow) :
    testRow leading excluded following uploaders row.caseless =
      testRow leading excluded following uploaders row := by
  have conditions : uploaders.map (·.test row.caseless) = uploaders.map (·.test row) :=
    List.map_congr_left fun t _ => t.test_caseless row
  rw [testRow, testRow, conditions]
  rfl

theorem run_caseless (p : Plan (List Char)) (metadata : Metadata) (tags : List TagRow)
    (titles : List TitleRow) :
    p.run metadata.caseless (tags.map (·.caseless)) (titles.map (·.caseless)) =
      p.run metadata tags titles := by
  have works : ∀ qs : List (SubQuery (List Char)),
      qs.map (·.works (tags.map (·.caseless)) (titles.map (·.caseless))) =
        qs.map (·.works tags titles) :=
    fun qs => List.map_congr_left fun q _ => q.works_caseless tags titles
  rw [run, run, allWorks_caseless, works, works]
  cases allWorks tags titles p.leading with
  | error fault => rfl
  | ok leading =>
    exact worksWhere_map MetadataRow.caseless (fun _ => rfl) (testRow_caseless leading _ _ _)
      metadata.rows

end Plan

namespace Catalogue

theorem has_caseless (c : Catalogue) (table : Table) : c.caseless.has table = c.has table := by
  cases table <;> simp [has, caseless]

/-- A search does not see the case of the letters in a catalogue, whether it gives an answer or
a fault. -/
theorem search_caseless {α : Type} (c : Catalogue) {p : Plan α} (worded : p.Worded)
    (params : List (List Char)) :
    c.caseless.search p params = c.search p params := by
  have prepared : c.caseless.prepare p = c.prepare p := by
    simp only [prepare, has_caseless]
  have metadata : c.caseless.metadata.getD .empty = (c.metadata.getD .empty).caseless := by
    cases present : c.metadata with
    | none =>
      simp only [caseless, present]
      rfl
    | some m => simp [caseless, present]
  have tags : c.caseless.tags.getD [] = (c.tags.getD []).map (·.caseless) := by
    cases present : c.tags <;> simp [caseless, present]
  have titles : c.caseless.titles.getD [] = (c.titles.getD []).map (·.caseless) := by
    cases present : c.titles <;> simp [caseless, present]
  rw [search_eq _ worded, search_eq _ worded, prepared, metadata, tags, titles]
  simp only [Plan.run_caseless]

end Catalogue

namespace Searcher

/-- Searching ignores the case of ASCII letters on both sides. Two searchers with the same options,
whatever they did before, give the same result to lines that differ only in such letters, on
catalogues that differ only in such letters: both the same works, or both the same fault. -/
theorem find_ignores_case {options : Options} {s s' : Searcher} (reached : s.Reached options)
    (reached' : s'.Reached options) {c c' : Connection}
    (rows : c.catalogue.caseless = c'.catalogue.caseless) {line line' : List Char}
    (lines : Text.eqIgnoringAsciiCase line line' = true) : s.find c line = s'.find c' line' := by
  have plans : (s.compile line).value = (s'.compile line').value := by
    rw [reached.compile_value, reached'.compile_value, Query.read, Query.read,
      Text.lowercase_eq_of_eqIgnoringAsciiCase lines]
  have worded : (s'.compile line').value.Worded := by
    rw [reached'.compile_value]
    exact Plan.worded_ofClauses _
  rw [find, find, plans, Connection.search, Connection.search,
    ← c.catalogue.search_caseless worded, rows, c'.catalogue.search_caseless worded]

private def greek (space name title : List Char) : Connection where
  catalogue :=
    { metadata := some ⟨[⟨1, some ['A', 'l']⟩, ⟨2, some ['B', 'o']⟩], by decide⟩
      tags := some [⟨1, some space, name, 0⟩, ⟨2, some space, name, 0⟩]
      titles := some [⟨1, title, 0⟩, ⟨2, title, 0⟩] }

/-- A short name, a sigma behind a letter, a phrase of words and an excluded uploader. -/
private def shouted : List Char :=
  ['F', ':', 'X', 'Σ', ' ', '"', 'É', 't', 'A', '"', ' ', '-', 'U', 'P', 'L', 'O', 'A', 'D', 'E',
    'R', ':', 'B', '?']

private def whispered : List Char :=
  ['f', ':', 'x', 'Σ', ' ', '"', 'É', 'T', 'a', '"', ' ', '-', 'u', 'p', 'l', 'o', 'a', 'd', 'e',
    'r', ':', 'b', '?']

theorem find_ignores_case_greek :
    Text.eqIgnoringAsciiCase shouted whispered = true ∧
      (greek ['F', 'E', 'm', 'a', 'l', 'e'] ['x', 'ς'] ['é', 'T', 'A']).catalogue.caseless =
        (greek ['f', 'e', 'm', 'a', 'l', 'E'] ['X', 'ς'] ['é', 't', 'A']).catalogue.caseless ∧
      (new {}).find (greek ['F', 'E', 'm', 'a', 'l', 'e'] ['x', 'ς'] ['é', 'T', 'A']) shouted =
        .ok [1] ∧
      (new {}).find (greek ['F', 'E', 'm', 'a', 'l', 'e'] ['x', 'ς'] ['é', 'T', 'A']) shouted =
        (new {}).find (greek ['f', 'e', 'm', 'a', 'l', 'E'] ['X', 'ς'] ['é', 't', 'A']) whispered :=
  ⟨by decide, by decide, Reached.new.find_of_run (by decide +kernel) (by decide +kernel),
    find_ignores_case .new .new (by decide) (by decide)⟩

end Searcher

end TagQuery
