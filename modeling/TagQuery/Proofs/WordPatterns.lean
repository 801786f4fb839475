import TagQuery.Proofs.LineLength
import TagQuery.Proofs.PatternCode
import TagQuery.Proofs.PhraseMatch

/-! The lenient patterns of a phrase are those of its runs between delimiters, each once, if there
are two different ones, and otherwise the pattern of the phrase as it stands. Main statement: this,
with what the patterns match. The patterns can also be had by going through the phrase once, writing
down the text of the run at hand and keeping it at a delimiter unless the same text was kept before.
That texts are compared there, and not runs, makes no difference: different runs have different
texts. -/
namespace TagQuery

/-- The kept items are all items, each once, in the order in which they first occur. -/
structure FirstOfEach {α : Type} [BEq α] (items kept : List α) : Prop where
  mem_iff : ∀ x, x ∈ kept ↔ x ∈ items
  ordered : kept.Pairwise fun x y => items.idxOf x < items.idxOf y

section FirstOfEach

variable {α : Type} [BEq α]

theorem FirstOfEach.nodup {items kept : List α} (h : FirstOfEach items kept) : kept.Nodup := by
  refine h.ordered.imp fun before same => ?_
  rw [same] at before
  exact Nat.lt_irrefl _ before

variable [LawfulBEq α]

theorem eraseDups_concat (items : List α) (x : α) :
    (items ++ [x]).eraseDups =
      if items.contains x then items.eraseDups else items.eraseDups ++ [x] := by
  rw [List.eraseDups_append, List.removeAll]
  by_cases old : x ∈ items
  · simp [old]
  · simp [old, List.eraseDups_cons]

theorem firstOfEach_eraseDups (items : List α) : FirstOfEach items items.eraseDups where
  mem_iff _ := List.mem_eraseDups
  ordered := by
    induction items using List.reverseRecOn with
    | nil => exact .nil
    | append_singleton items x ih =>
      have earlier : items.eraseDups.Pairwise fun y z =>
          (items ++ [x]).idxOf y < (items ++ [x]).idxOf z := by
        refine ih.imp_of_mem fun hy hz before => ?_
        rw [List.idxOf_append_of_mem (List.mem_eraseDups.mp hy),
          List.idxOf_append_of_mem (List.mem_eraseDups.mp hz)]
        exact before
      rw [eraseDups_concat]
      split
      · exact earlier
      · next new =>
        have fresh : x ∉ items := fun old => new (List.contains_iff_mem.mpr old)
        refine List.pairwise_append.mpr ⟨earlier, List.pairwise_singleton _ _, fun y hy z hz => ?_⟩
        have old := List.mem_eraseDups.mp hy
        rw [List.mem_singleton.mp hz, List.idxOf_append_of_mem old,
          List.idxOf_append_of_notMem fresh]
        exact Nat.lt_add_right _ (List.idxOf_lt_length_iff.mpr old)

end FirstOfEach

namespace Phrase

/-- The code points with the Unicode property White_Space, among them five from U+0009 and eleven from
U+2000 on. -/
def whiteSpace : List Nat :=
  List.range' 0x9 5 ++ List.range' 0x2000 11 ++
    [0x20, 0x85, 0xA0, 0x1680, 0x2028, 0x2029, 0x202F, 0x205F, 0x3000]

def dividingMarks : List Char :=
  ['-', '.', ',', ':', ';', '/', '|', '!', '(', ')', '[', ']', '~', '+']

/-- Whether a place stands between runs; a hole never does. -/
def standsBetween : Place → Bool
  | .char c => whiteSpace.contains c.toNat || dividingMarks.contains c
  | _ => false

/-- The maximal runs of places of which none stands between runs, without the empty ones. -/
def runs (p : Phrase) : List (List Place) :=
  (p.places.splitOnP standsBetween).filter (· ≠ [])

theorem isBlank_eq (c : Char) : Text.isBlank c = whiteSpace.contains c.toNat := by
  rw [Bool.eq_iff_iff, List.contains_iff_mem]
  simp only [Text.isBlank, whiteSpace, Bool.or_eq_true, Bool.and_eq_true, decide_eq_true_eq,
    beq_iff_eq, List.mem_append, List.mem_range'_1, List.mem_cons, List.not_mem_nil, or_false]
  omega

theorem divides_eq : divides = standsBetween := by
  funext x
  cases x with
  | char c =>
    rw [divides, isDelimiter, isBlank_eq, standsBetween]
    rfl
  | one | many => rfl

theorem modifyHead_nil_append (runs : List (List Place)) :
    runs.modifyHead ([] ++ ·) = runs := by
  cases runs <;> rfl

theorem foldr_cutBefore (places : List Place) :
    places.foldr cutBefore [[]] = places.splitOnP divides := by
  induction places with
  | nil => rfl
  | cons x places ih =>
    obtain ⟨run, runs, cut⟩ := List.exists_cons_of_ne_nil (places.splitOnP_ne_nil divides)
    rw [List.foldr_cons, ih, List.splitOnP_cons_eq_if_modifyHead, cut]
    rfl

theorem words_eq (p : Phrase) : p.words = p.runs.eraseDups := by
  rw [words, foldr_cutBefore, runs, divides_eq]

theorem mem_places_of_mem_word {p : Phrase} {word : List Place} (h : word ∈ p.words) {x : Place}
    (hx : x ∈ word) : x ∈ p.places := by
  rw [words, List.mem_eraseDups] at h
  have inside : x ∈ (p.places.foldr cutBefore [[]]).flatten :=
    List.mem_flatten.mpr ⟨word, (List.mem_filter.mp h).1, hx⟩
  rw [flatten_cuts] at inside
  exact (List.mem_filter.mp inside).1

theorem lenientPatterns_eq (p : Phrase) :
    p.lenientPatterns =
      if 2 ≤ p.words.length then p.words.map wordPattern else [p.containedPattern] := by
  unfold lenientPatterns
  match p.words with
  | [] => rfl
  | [_] => rfl
  | word :: word' :: words => exact (if_pos (Nat.le_add_left 2 words.length)).symm

theorem nodup_lenientPatterns (p : Phrase) : p.lenientPatterns.Nodup := by
  rw [lenientPatterns_eq]
  split
  · rw [words_eq]
    exact (firstOfEach_eraseDups p.runs).nodup.map wordPattern_injective
  · exact List.nodup_singleton _

/-- The texts of the words so far, and the text of the word that is being written. -/
structure Gathering where
  texts : List (List Char)
  current : List Char

namespace Gathering

/-- Ends the word at hand. It is kept unless it is empty or was kept before. -/
def close (g : Gathering) : Gathering where
  texts :=
    if g.current.isEmpty || g.texts.contains g.current then g.texts
    else g.texts ++ [g.current]
  current := []

def write (g : Gathering) (text : List Char) : Gathering :=
  { g with current := g.current ++ text }

def takeChar (g : Gathering) (c : Char) : Gathering :=
  if isDelimiter c then g.close else g.write (Like.escapeChar c)

def takePiece (g : Gathering) : Piece → Gathering
  | .lit chars => chars.foldl takeChar g
  | .one => g.write ['_']
  | .many => g.write ['%']

def takePlace (g : Gathering) (x : Place) : Gathering :=
  if divides x then g.close else g.write (likePlace x)

theorem takePiece_eq (g : Gathering) (piece : Piece) :
    g.takePiece piece = (placesOf piece).foldl takePlace g := by
  cases piece with
  | lit chars =>
    rw [placesOf, List.foldl_map]
    rfl
  | one => rfl
  | many => rfl

/-- The texts are those of the runs behind, and the text at hand is that of the places since then. -/
structure Follows (g : Gathering) (runs : List (List Place)) (run : List Place) : Prop where
  texts : g.texts = runs.eraseDups.map (List.flatMap likePlace)
  current : g.current = run.flatMap likePlace

variable {g : Gathering} {runs : List (List Place)} {run : List Place}

theorem Follows.write (h : g.Follows runs run) (x : Place) :
    (g.write (likePlace x)).Follows runs (run ++ [x]) where
  texts := h.texts
  current := by
    rw [List.flatMap_append, List.flatMap_singleton, ← h.current]
    rfl

/-- A text was kept before if and only if its run ended before. -/
theorem Follows.contains_current (h : g.Follows runs run) :
    g.texts.contains g.current = runs.contains run := by
  rw [h.texts, h.current, Bool.eq_iff_iff, List.contains_iff_mem, List.contains_iff_mem,
    List.mem_map_of_injective likePlaces_injective, List.mem_eraseDups]

theorem Follows.isEmpty_current (h : g.Follows runs run) : g.current.isEmpty = run.isEmpty := by
  rw [Bool.eq_iff_iff, List.isEmpty_iff, List.isEmpty_iff, h.current]
  exact likePlaces_injective.eq_iff (a := run) (b := [])

theorem Follows.close (h : g.Follows runs run) :
    g.close.Follows (runs ++ [run].filter (· ≠ [])) [] where
  texts := by
    rw [Gathering.close, h.contains_current, h.isEmpty_current]
    by_cases empty : run = []
    · simp [empty, h.texts]
    · rw [List.filter_cons_of_pos (by simpa using empty), List.filter_nil, eraseDups_concat,
        List.isEmpty_eq_false_iff.mpr empty, Bool.false_or, h.texts, h.current]
      split <;> simp
  current := rfl

/-- Going through more places, the first of their runs continues the run at hand. -/
theorem Follows.foldl (h : g.Follows runs run) (places : List Place) :
    (places.foldl takePlace g).close.Follows
      (runs ++ ((places.splitOnP divides).modifyHead (run ++ ·)).filter (· ≠ [])) [] := by
  induction places generalizing g runs run with
  | nil =>
    rw [List.splitOnP_nil, List.modifyHead_cons, List.append_nil]
    exact h.close
  | cons x places ih =>
    rw [List.foldl_cons, List.splitOnP_cons_eq_if_modifyHead, takePlace]
    split
    · have rest := ih h.close
      rw [modifyHead_nil_append, List.append_assoc, ← List.filter_append] at rest
      simpa using rest
    · have rest := ih (h.write x)
      rw [List.modifyHead_modifyHead]
      simpa [Function.comp_def] using rest

end Gathering

def gatheredPatterns (p : Phrase) : List (List Char) :=
  let texts := (p.pieces.foldl Gathering.takePiece ⟨[], []⟩).close.texts
  if texts.length ≤ 1 then [p.containedPattern]
  else texts.map fun text => '%' :: (text ++ ['%'])

theorem gathered_texts (p : Phrase) :
    (p.pieces.foldl Gathering.takePiece ⟨[], []⟩).close.texts =
      p.words.map (List.flatMap likePlace) := by
  have start : Gathering.Follows ⟨[], []⟩ [] [] := ⟨rfl, rfl⟩
  have whole := start.foldl p.places
  rw [modifyHead_nil_append, List.nil_append] at whole
  have pass : p.places.foldl Gathering.takePlace ⟨[], []⟩ =
      p.pieces.foldl Gathering.takePiece ⟨[], []⟩ := by
    rw [places, List.foldl_flatMap, ← funext₂ Gathering.takePiece_eq]
  rw [← pass, whole.texts, words_eq, runs, divides_eq]

theorem gatheredPatterns_eq (p : Phrase) : p.gatheredPatterns = p.lenientPatterns := by
  rw [gatheredPatterns, gathered_texts, lenientPatterns_eq, List.length_map, List.map_map]
  by_cases several : 2 ≤ p.words.length
  · rw [if_neg (by omega), if_pos several]
    rfl
  · rw [if_pos (by omega), if_neg several]

theorem holds_wordPattern_iff {p : Phrase} {value : List Char} (hp : p.Ordinary)
    (hv : ∀ c ∈ value, Like.isOrdinary c = true) {word : List Place} (hw : word ∈ p.words) :
    Like.holds (wordPattern word) value = true ↔
      ∃ part, part <:+: value ∧ Splits Place.Takes word part := by
  rw [wordPattern_eq]
  exact holds_around_iff (fun x hx => hp.places x (mem_places_of_mem_word hw hx)) hv

theorem holds_containedPattern_iff {p : Phrase} {value : List Char} (hp : p.Ordinary)
    (hv : ∀ c ∈ value, Like.isOrdinary c = true) :
    Like.holds p.containedPattern value = true ↔
      ∃ part, part <:+: value ∧ Splits Piece.Takes p.pieces part := by
  rw [containedPattern_eq, holds_around_iff hp.places hv]
  simp only [splits_places]

theorem exists_lenientPattern_iff {p : Phrase} {value : List Char} (hp : p.Ordinary)
    (hv : ∀ c ∈ value, Like.isOrdinary c = true) :
    (∃ pattern ∈ p.lenientPatterns, Like.holds pattern value = true) ↔
      if 2 ≤ p.words.length then
        ∃ word ∈ p.words, ∃ part, part <:+: value ∧ Splits Place.Takes word part
      else ∃ part, part <:+: value ∧ Splits Piece.Takes p.pieces part := by
  rw [lenientPatterns_eq]
  split
  · simp only [List.mem_map, exists_exists_and_eq_and]
    refine exists_congr fun word => and_congr_right fun hw => ?_
    exact holds_wordPattern_iff hp hv hw
  · simp only [List.mem_singleton, exists_eq_left]
    exact holds_containedPattern_iff hp hv

/-- The lenient patterns of a phrase. Its words are the first of each of its equal runs. If there are
two of them, the patterns are theirs, and otherwise the only pattern is that of the whole phrase;
there is always one, and no two are equal. They can be gathered in one pass. A value matches one of
them if and only if it has a part in it that matches one of the words, or else the whole phrase. -/
theorem lenientPatterns_of_runs (p : Phrase) :
    FirstOfEach p.runs p.words ∧
    p.lenientPatterns =
      (if 2 ≤ p.words.length then p.words.map wordPattern else [p.containedPattern]) ∧
    p.lenientPatterns.Nodup ∧ p.lenientPatterns ≠ [] ∧
    p.gatheredPatterns = p.lenientPatterns ∧
    ∀ value : List Char, p.Ordinary → (∀ c ∈ value, Like.isOrdinary c = true) →
      ((∃ pattern ∈ p.lenientPatterns, Like.holds pattern value = true) ↔
        if 2 ≤ p.words.length then
          ∃ word ∈ p.words, ∃ part, part <:+: value ∧ Splits Place.Takes word part
        else ∃ part, part <:+: value ∧ Splits Piece.Takes p.pieces part) := by
  refine ⟨?_, lenientPatterns_eq p, nodup_lenientPatterns p, lenientPatterns_ne_nil p,
    gatheredPatterns_eq p, fun value hp hv => exists_lenientPattern_iff hp hv⟩
  rw [words_eq]
  exact firstOfEach_eraseDups p.runs

/-- Three runs, of which the first and the last are equal. The second goes across two literals and
has a mark of patterns in it. -/
private def solo : Phrase :=
  ⟨[.lit ['s', 'o'], .many, .lit [' ', '1', '0'], .lit ['0', '%', '/', 's', 'o'], .many], by decide⟩

theorem lenientPatterns_of_runs_solo :
    FirstOfEach solo.runs solo.words ∧
      solo.words = [[.char 's', .char 'o', .many], [.char '1', .char '0', .char '0', .char '%']] ∧
      solo.Ordinary ∧ (∀ c ∈ ['a', '1', '0', '0', '%'], Like.isOrdinary c = true) ∧
      ∃ word ∈ solo.words, ∃ part, part <:+: ['a', '1', '0', '0', '%'] ∧
        Splits Place.Takes word part := by
  obtain ⟨first, -, -, -, -, matched⟩ := lenientPatterns_of_runs solo
  have ordinary : solo.Ordinary := ordinary_of_places (by decide)
  have value : ∀ c ∈ ['a', '1', '0', '0', '%'], Like.isOrdinary c = true :=
    List.all_eq_true.mp (by decide)
  have found : ∃ pattern ∈ solo.lenientPatterns,
      Like.holds pattern ['a', '1', '0', '0', '%'] = true := by
    refine ⟨wordPattern [.char '1', .char '0', .char '0', .char '%'], ?_, rfl⟩
    decide
  refine ⟨first, by decide, ordinary, value, ?_⟩
  exact (if_pos (by decide : 2 ≤ solo.words.length)).mp ((matched _ ordinary value).mp found)

end Phrase

end TagQuery
