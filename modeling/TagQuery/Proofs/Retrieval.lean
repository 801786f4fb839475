import Mathlib.Data.Bool.AllAny
import TagQuery.Proofs.Leniency
import TagQuery.Proofs.LostLetters
import TagQuery.Proofs.Printing

/-! A title that is typed in quotes is lowercased before it is read, and by other rules than those
by which it is then compared with the stored title: a letter beyond ASCII that is not its own
lowercase is lost. A namespace is typed back from its places, where a `_` has become a `?` and a `%`
a `*`. Main statements: a work is found by its title exactly if no letter of the title is lost, and
by its namespace exactly if no wildcard of it has another spelling. -/
namespace TagQuery

namespace Query

def Quotable (text : List Char) : Prop :=
  '"' ∉ text ∧ '$' ∉ text

instance (text : List Char) : Decidable (Quotable text) :=
  inferInstanceAs (Decidable (_ ∧ _))

theorem Quotable.lowercase {text : List Char} (h : Quotable text) :
    Quotable (Text.lowercase text) :=
  ⟨mt (Text.mem_of_mem_lowercase (by decide)) h.1, mt (Text.mem_of_mem_lowercase (by decide)) h.2⟩

theorem lowercase_enclosed (text rest : List Char) :
    Text.lowercase (enclosed text ++ rest) =
      enclosed (Text.lowercase text) ++ Text.lowercase rest := by
  have mark : Text.isMark '"' = true := by decide
  have barrier : Text.isBarrier '"' = true := by decide +kernel
  have opening := Text.lowercase_append_barrier barrier mark [] (text ++ '"' :: rest)
  have closing := Text.lowercase_append_barrier barrier mark text rest
  rw [closing, List.nil_append] at opening
  have split : enclosed text ++ rest = '"' :: (text ++ '"' :: rest) := by simp [enclosed]
  rw [split, opening]
  simp [enclosed, Text.lowercase, Text.lowercaseFrom]

theorem read_enclosed_append (holes : Bool) {text rest : List Char} (quotable : Quotable text)
    (unbroken : Unbroken false rest) :
    read holes (enclosed text ++ rest) =
      ((Text.lowercase rest).foldl (Draft.feed holes)
        ((enclosed (Text.lowercase text)).foldl (Draft.feed holes) {})).clause?.toList := by
  obtain ⟨front, closed⟩ := unbroken_enclosed quotable.lowercase.1
  have whole : Unbroken (Draft.quoted {})
      (enclosed (Text.lowercase text) ++ Text.lowercase rest) := by
    rw [unbroken_append]
    refine ⟨front, ?_⟩
    rw [closed]
    exact unbroken.lowercase
  rw [read, lowercase_enclosed, readFrom_unbroken holes [] whole, List.foldl_append,
    List.append_nil]
  generalize ((Text.lowercase rest).foldl (Draft.feed holes) _).clause? = clause
  cases clause <;> rfl

/-- After a text in quotes the draft has the places of the text, and nothing else. -/
theorem Draft.foldl_feed_quotable (holes : Bool) {text : List Char} (h : Quotable text) :
    ((enclosed text).foldl (feed holes) {}).places = text.map (placeOf holes) ∧
      SameScope {} ((enclosed text).foldl (feed holes) {}) := by
  have plain : ∀ c ∈ text, c ≠ '"' ∧ c ≠ '$' := by
    intro c hc
    constructor
    · rintro rfl
      exact h.1 hc
    · rintro rfl
      exact h.2 hc
  obtain ⟨places, same⟩ := @foldl_feed_places holes (fresh true none false false) rfl text plain
  have fed : (enclosed text).foldl (feed holes) {} =
      { text.foldl (feed holes) (fresh true none false false) with quoted := false } :=
    foldl_feed_enclosed same
  rw [fed]
  exact ⟨places, ⟨rfl, same.space, same.excluded, same.exact⟩⟩

/-- A text in quotes is one clause, for the places of its lowercase. -/
theorem read_enclosed (holes : Bool) {text : List Char} (quotable : Quotable text)
    (nonempty : text ≠ []) :
    ∃ p, read holes (enclosed text) = [⟨.text p, false, false⟩] ∧
      p.places = (Text.lowercase text).map (placeOf holes) := by
  obtain ⟨places, same⟩ := Draft.foldl_feed_quotable holes quotable.lowercase
  have some_place : ((enclosed (Text.lowercase text)).foldl (Draft.feed holes) {}).places ≠ [] := by
    rw [places]
    exact mt List.map_eq_nil_iff.mp (Text.lowercase_ne_nil nonempty)
  obtain ⟨p, found, placed⟩ := Draft.phrase?_of_places some_place
  have line := read_enclosed_append holes quotable (unbroken_nil false)
  have nothing : Text.lowercase [] = [] := rfl
  rw [List.append_nil, nothing, List.foldl_nil] at line
  refine ⟨p, ?_, placed.trans places⟩
  rw [line]
  simp [Draft.clause?, same.space, found, same.excluded, same.exact]

/-- A text in quotes before a colon is a namespace, typed back from its places. -/
theorem read_enclosed_colon (holes : Bool) {text : List Char} (quotable : Quotable text)
    (nonempty : text ≠ []) :
    read holes (enclosed text ++ [':']) =
      [⟨.tag (Namespace.resolve ((Text.lowercase text).map fun c => (placeOf holes c).typed)) none,
        false, false⟩] := by
  obtain ⟨places, same⟩ := Draft.foldl_feed_quotable holes quotable.lowercase
  have unbroken : Unbroken false [':'] := by
    have colon : Text.isSeparator ':' = false := by decide
    simp [colon]
  rw [read_enclosed_append holes quotable unbroken]
  generalize (enclosed (Text.lowercase text)).foldl (Draft.feed holes) {} = d at places same
  have written : d.written = (Text.lowercase text).map fun c => (placeOf holes c).typed := by
    rw [Draft.written_eq_places, places, List.map_map]
    rfl
  have named : d.written ≠ [] := by
    rw [written]
    exact mt List.map_eq_nil_iff.mp (Text.lowercase_ne_nil nonempty)
  have colon : (Text.lowercase [':']).foldl (Draft.feed holes) d = d.scope := by
    have lowered : Text.lowercase [':'] = [':'] := by decide
    rw [lowered]
    simp [Draft.feed, same.quoted]
  rw [colon, Draft.scope_of_written named, written, same.quoted, same.excluded, same.exact]
  rfl

theorem placeOf_eq_nul_iff (holes : Bool) (c : Char) :
    placeOf holes c = .char (Char.ofNat 0) ↔ c = Char.ofNat 0 := by
  rcases placeOf_cases holes c with ⟨char, -⟩ | ⟨-, ⟨rfl | rfl, one⟩ | ⟨rfl | rfl, many⟩⟩
  · rw [char]
    simp
  · rw [one]
    decide
  · rw [one]
    decide
  · rw [many]
    decide
  · rw [many]
    decide

theorem visible_map_placeOf (holes : Bool) (text : List Char) :
    Phrase.visible (text.map (placeOf holes)) = (Like.upToNul text).map (placeOf holes) := by
  unfold Phrase.visible Like.upToNul
  rw [List.takeWhile_map]
  congr 2
  funext c
  rw [Bool.eq_iff_iff]
  simp [placeOf_eq_nul_iff]

end Query

namespace Like

/-- Whether a token asks for what is compared as `x` is. -/
def Token.asksFor (x : Char) : Token → Bool
  | .char a => key a == key x
  | _ => false

/-- A value has every character at least as often as the tokens ask for it. -/
theorem countP_asksFor_le (x : Char) {tokens : List Token} {value : List Char}
    (h : Splits Token.Takes tokens value) :
    tokens.countP (·.asksFor x) ≤ Text.occurrences x value := by
  induction h with
  | nil => exact Nat.le_refl _
  | @cons t tokens piece rest taken others ih =>
    rw [Text.occurrences_append, List.countP_cons]
    split
    · next asked =>
      cases t with
      | char a =>
        obtain ⟨c, rfl, same⟩ := taken
        have found : Text.occurrences x [c] = 1 := by
          have asked : key a = key x := eq_of_beq asked
          simp [Text.occurrences, ← same, asked]
        omega
      | one | many | never => cases asked
    · omega

end Like

namespace Query

theorem asksFor_placeOf (holes : Bool) (c : Char) {x : Char} (hx : Text.isMark x = false) :
    (Phrase.tokenOf (placeOf holes c)).asksFor x = (Like.key c == Like.key x) := by
  have apart : Text.isMark c = true → (Like.key c == Like.key x) = false := by
    intro mark
    apply beq_eq_false_iff_ne.mpr
    intro same
    rw [Text.eq_of_key_eq mark same.symm, mark] at hx
    cases hx
  rcases placeOf_cases holes c with ⟨char, -⟩ | ⟨-, ⟨wild, one⟩ | ⟨wild, many⟩⟩
  · rw [char]
    rfl
  · rw [one, apart (by rcases wild with rfl | rfl <;> decide)]
    rfl
  · rw [many, apart (by rcases wild with rfl | rfl <;> decide)]
    rfl

theorem takes_placeOf (holes : Bool) {a c : Char} (h : Like.key a = Like.key c) :
    (Phrase.tokenOf (placeOf holes a)).Takes [c] := by
  rcases placeOf_cases holes a with ⟨char, -⟩ | ⟨-, ⟨-, one⟩ | ⟨-, many⟩⟩
  · rw [char]
    exact ⟨c, rfl, h⟩
  · rw [one]
    exact ⟨c, rfl⟩
  · rw [many]
    trivial

end Query

namespace Phrase

variable {p : Phrase} {holes : Bool} {title : List Char}

/-- A title without letters that lowercasing loses is what its own phrase asks for. -/
theorem holds_exactPattern_own
    (read : p.places = (Text.lowercase title).map (Query.placeOf holes))
    (steady : ∀ c ∈ Like.upToNul title, Text.isSteady c = true) :
    Like.holds p.exactPattern title = true := by
  rw [exactPattern_eq, read, holds_likePlaces, Query.visible_map_placeOf, Like.upToNul_lowercase,
    Text.lowercase_eq_lowered, Text.lowered_of_isSteady steady, List.map_map, List.map_map]
  apply Like.splits_map
  intro c _
  exact Query.takes_placeOf holes (Like.key_toLower c)

/-- A title that has what its own phrase asks for has no letter that lowercasing loses: the phrase
would ask for another one too often. -/
theorem isSteady_of_holds_containedPattern
    (read : p.places = (Text.lowercase title).map (Query.placeOf holes))
    (h : Like.holds p.containedPattern title = true) :
    ∀ c ∈ Like.upToNul title, Text.isSteady c = true := by
  intro c hc
  by_contra loose
  obtain ⟨x, -, noMark, more⟩ :=
    Text.exists_occurrences_lt hc (Bool.eq_false_iff.mpr loose) []
  rw [containedPattern_eq, holds_likePlaces] at h
  have fewer := Like.countP_asksFor_le x h
  have part : ((visible p.places).map tokenOf).countP (·.asksFor x) ≤
      ((visible (around p.places)).map tokenOf).countP (·.asksFor x) :=
    ((visible_sublist_around p.places).map tokenOf).countP_le
  have asked : ((visible p.places).map tokenOf).countP (·.asksFor x) =
      Text.occurrences x (Text.lowered [] (Like.upToNul title)) := by
    rw [read, Query.visible_map_placeOf, Like.upToNul_lowercase, Text.lowercase_eq_lowered,
      List.map_map, List.countP_map]
    unfold Text.occurrences
    congr 1
    funext c
    exact Query.asksFor_placeOf holes c noMark
  omega

/-- In every mode, a title fits the phrase that is read from it in quotes exactly if lowercasing
loses none of its letters. -/
theorem fitsTitle_own_iff (read : p.places = (Text.lowercase title).map (Query.placeOf holes))
    (exact : Bool) :
    p.FitsTitle exact title ↔ ∀ c ∈ Like.upToNul title, Text.isSteady c = true := by
  constructor
  · intro fits
    apply isSteady_of_holds_containedPattern read
    cases exact with
    | true => exact holds_containedPattern fits
    | false => exact fits
  · intro steady
    have whole : p.FitsTitle true title := holds_exactPattern_own read steady
    exact whole.of_exact exact

end Phrase

namespace Searcher

variable {options : Options} {c : Connection} {row : MetadataRow} {ids : List Int}

/-- A line of one plain clause finds a work if the work has what the clause asks for. -/
theorem Answers.mem_iff_fits {line : List Char} {subject : Subject}
    (h : Answers options c line ids)
    (single : Query.read options.wildcards line = [⟨subject, false, false⟩])
    (hr : row ∈ c.catalogue.metadataRows) :
    row.work ∈ ids ↔ subject.Fits c.catalogue row (!options.lenient) := by
  rw [h.mem_iff_of_row hr, single, tighten_eq]
  simp [Clause.Satisfied]

/-- A work is found by one of its titles, typed in quotes, if every letter of the title is ASCII or
its own lowercase, be wildcards read or not and the search lenient or not. No less will do: a work
with no tag and no other title is found so only if its title is like that. -/
theorem quoted_title_found (hr : row ∈ c.catalogue.metadataRows) {title : TitleRow}
    (ht : title ∈ c.catalogue.titleRows) (titled : title.work = row.work)
    (quotable : Query.Quotable title.title)
    (answer : Answers options c (Query.enclosed title.title) ids) :
    ((∀ x ∈ Like.upToNul title.title, Text.isSteady x = true) → row.work ∈ ids) ∧
    ((∀ tag ∈ c.catalogue.tagRows, tag.work ≠ row.work) →
      (∀ other ∈ c.catalogue.titleRows, other.work = row.work → other.title = title.title) →
      row.work ∈ ids → ∀ x ∈ Like.upToNul title.title, Text.isSteady x = true) := by
  by_cases empty : title.title = []
  · rw [empty] at answer ⊢
    have nothing : Query.read options.wildcards (Query.enclosed []) = [] := by
      cases options.wildcards <;> rfl
    refine ⟨fun _ => ?_, fun _ _ _ x hx => ?_⟩
    · rw [answer.mem_iff_of_row hr, nothing, tighten_eq]
      simp
    · cases hx
  · obtain ⟨p, single, places⟩ := Query.read_enclosed options.wildcards quotable empty
    rw [answer.mem_iff_fits single hr]
    constructor
    · intro steady
      exact .inr ⟨title, ht, titled, (p.fitsTitle_own_iff places _).mpr steady⟩
    · rintro untagged single_title (⟨tag, htag, work, -⟩ | ⟨other, ho, work, fits⟩)
      · exact absurd work (untagged tag htag)
      · rw [single_title other ho work] at fits
        exact (p.fitsTitle_own_iff places _).mp fits

/-- A title with wildcards, marks and an accent, and with a lost letter behind a U+0000. -/
private def oddTitle : TitleRow :=
  ⟨5, ['A', 'é', '_', ':', ' ', '-', '\\', '*', Char.ofNat 0, 'É'], 0⟩

private def archive (title : TitleRow) : Connection where
  catalogue := { metadata := some ⟨[⟨5, none⟩, ⟨6, none⟩], by decide⟩, titles := some [title] }

theorem quoted_title_found_archive :
    Answers { lenient := false } (archive oddTitle) (Query.enclosed oddTitle.title) [5] ∧
      (5 : Int) ∈ [(5 : Int)] ∧ ∀ x ∈ Like.upToNul oddTitle.title, Text.isSteady x = true := by
  have answer : Answers { lenient := false } (archive oddTitle) (Query.enclosed oddTitle.title)
      [5] := ⟨_, .new, Reached.new.find_of_run rfl rfl⟩
  have row : ⟨5, none⟩ ∈ (archive oddTitle).catalogue.metadataRows := by decide
  have title : oddTitle ∈ (archive oddTitle).catalogue.titleRows := by decide
  obtain ⟨found, only⟩ := quoted_title_found row title rfl (by decide) answer
  -- The characters are checked one by one along the list, not all that there are.
  have inside : (5 : Int) ∈ [(5 : Int)] :=
    found (List.all_iff_forall_prop.mp (by decide))
  exact ⟨answer, inside, only (by decide) (by decide) inside⟩

/-- Not every title can be typed: in `É` the accent is lost. -/
theorem accented_title_lost :
    ¬ ∀ (options : Options) (c : Connection) (row : MetadataRow) (title : TitleRow)
      (ids : List Int), row ∈ c.catalogue.metadataRows → title ∈ c.catalogue.titleRows →
      title.work = row.work → Query.Quotable title.title →
      Answers options c (Query.enclosed title.title) ids → row.work ∈ ids := by
  intro all
  have answer : Answers {} (archive ⟨5, ['É'], 0⟩) (Query.enclosed ['É']) [] :=
    ⟨_, .new, Reached.new.find_of_run rfl rfl⟩
  exact absurd (all {} _ ⟨5, none⟩ ⟨5, ['É'], 0⟩ [] (by decide) (by decide) rfl (by decide) answer)
    (by decide)

end Searcher

namespace Namespace

theorem resolve_of_mem {name : List Char} {m : Char} (hm : m ∈ name) (wild : m = '?' ∨ m = '*') :
    resolve name = name := by
  have letters : ∀ a ∈ aliases, '?' ∉ a.1.map Char.toLower ∧ '*' ∉ a.1.map Char.toLower := by
    decide
  have none_found : aliases.find? (fun a => Text.eqIgnoringAsciiCase a.1 name) = none := by
    apply List.find?_eq_none.mpr
    intro a ha same
    have spelled : m.toLower ∈ a.1.map Char.toLower := by
      rw [eq_of_beq same]
      exact List.mem_map_of_mem hm
    obtain ⟨noOne, noMany⟩ := letters a ha
    rcases wild with rfl | rfl
    · exact noOne spelled
    · exact noMany spelled
  rw [resolve, none_found]

end Namespace

namespace Query

variable {holes : Bool} {space : List Char}

/-- A name as it comes back from its places in quotes. -/
def retyped (holes : Bool) (space : List Char) : List Char :=
  space.map fun c => (placeOf holes c).typed

/-- A character comes back as it was typed, or as the other spelling of the same wildcard. -/
theorem typed_placeOf_cases (holes : Bool) (c : Char) :
    (placeOf holes c).typed = c ∧ (holes = false ∨ c ≠ '_' ∧ c ≠ '%') ∨
      holes = true ∧ (c = '_' ∧ (placeOf holes c).typed = '?' ∨
        c = '%' ∧ (placeOf holes c).typed = '*') := by
  rcases placeOf_cases holes c with ⟨char, kept⟩ | ⟨on, ⟨rfl | rfl, one⟩ | ⟨rfl | rfl, many⟩⟩
  · rw [char]
    exact .inl ⟨rfl, kept⟩
  · rw [one]
    exact .inl ⟨rfl, .inr (by decide)⟩
  · rw [one]
    exact .inr ⟨on, .inl ⟨rfl, rfl⟩⟩
  · rw [many]
    exact .inl ⟨rfl, .inr (by decide)⟩
  · rw [many]
    exact .inr ⟨on, .inr ⟨rfl, rfl⟩⟩

theorem key_typed_placeOf_iff (holes : Bool) (c : Char) :
    Like.key (placeOf holes c).typed = Like.key c ↔ holes = false ∨ c ≠ '_' ∧ c ≠ '%' := by
  rcases typed_placeOf_cases holes c with ⟨same, kept⟩ | ⟨rfl, ⟨rfl, other⟩ | ⟨rfl, other⟩⟩
  · rw [same]
    exact iff_of_true rfl kept
  · rw [other]
    decide
  · rw [other]
    decide

/-- A name that stands for itself does so too when it comes back, and is the uploader's only if it
was before. -/
theorem resolve_retyped (canonical : Namespace.resolve space = space) :
    Namespace.resolve (retyped holes space) = retyped holes space ∧
      (space ≠ Namespace.uploader → retyped holes space ≠ Namespace.uploader) := by
  by_cases same : ∀ c ∈ space, (placeOf holes c).typed = c
  · have whole : retyped holes space = space := by
      rw [retyped, List.map_congr_left same, List.map_id']
    rw [whole]
    exact ⟨canonical, id⟩
  · obtain ⟨c, differs⟩ := not_forall.mp same
    obtain ⟨hc, changed⟩ := Classical.not_imp.mp differs
    have back : (placeOf holes c).typed ∈ retyped holes space := List.mem_map_of_mem hc
    have wild : (placeOf holes c).typed = '?' ∨ (placeOf holes c).typed = '*' := by
      rcases typed_placeOf_cases holes c with ⟨same, -⟩ | ⟨-, ⟨-, one⟩ | ⟨-, many⟩⟩
      · exact absurd same changed
      · exact .inl one
      · exact .inr many
    refine ⟨Namespace.resolve_of_mem back wild, fun _ uploader => ?_⟩
    rw [uploader] at back
    rcases wild with one | many
    · rw [one] at back
      exact absurd back (by decide)
    · rw [many] at back
      exact absurd back (by decide)

theorem upToNul_retyped (holes : Bool) (space : List Char) :
    Like.upToNul (retyped holes space) = retyped holes (Like.upToNul space) := by
  have same : ∀ c, ((placeOf holes c).typed != Char.ofNat 0) = (c != Char.ofNat 0) := by
    intro c
    rcases typed_placeOf_cases holes c with ⟨same, -⟩ | ⟨-, ⟨rfl, one⟩ | ⟨rfl, many⟩⟩
    · rw [same]
    · rw [one]
      decide
    · rw [many]
      decide
  unfold Like.upToNul retyped
  rw [List.takeWhile_map]
  congr 2
  funext c
  exact same c

end Query

/-- A namespace matches its name, as it comes back, exactly if wildcards are not read or none of its
characters is a wildcard with another spelling. -/
theorem Query.holds_escape_retyped_iff {holes : Bool} {space : List Char} :
    Like.holds (Like.escape (retyped holes space)) space = true ↔
      holes = false ∨ ∀ c ∈ Like.upToNul space, c ≠ '_' ∧ c ≠ '%' := by
  rw [Like.holds_escape, upToNul_retyped, retyped, Like.splits_map_char]
  simp only [key_typed_placeOf_iff]
  cases holes with
  | false => simp
  | true => simp

namespace Searcher

variable {options : Options} {c : Connection} {row : MetadataRow} {ids : List Int}

/-- A work is found by the namespace of one of its tags, typed in quotes before a colon, if
wildcards are not read or the namespace has no `_` and no `%`. No less will do: a work whose tags
all have that namespace or none is found so only if this holds. -/
theorem quoted_namespace_found (hr : row ∈ c.catalogue.metadataRows) {tag : TagRow}
    (ht : tag ∈ c.catalogue.tagRows) (tagged : tag.work = row.work) {space : List Char}
    (spaced : tag.space = some space) (nonempty : space ≠ [])
    (lower : ∀ x ∈ space, Text.lowerChar x = [x]) (quotable : Query.Quotable space)
    (noUploader : space ≠ Namespace.uploader) (canonical : Namespace.resolve space = space)
    (answer : Answers options c (Query.enclosed space ++ [':']) ids) :
    (options.wildcards = false ∨ (∀ x ∈ Like.upToNul space, x ≠ '_' ∧ x ≠ '%') →
      row.work ∈ ids) ∧
    ((∀ other ∈ c.catalogue.tagRows, other.work = row.work → ∀ value ∈ other.space, value = space) →
      row.work ∈ ids →
      options.wildcards = false ∨ ∀ x ∈ Like.upToNul space, x ≠ '_' ∧ x ≠ '%') := by
  obtain ⟨itself, other_space⟩ := @Query.resolve_retyped options.wildcards space canonical
  have single := Query.read_enclosed_colon options.wildcards quotable nonempty
  rw [Text.lowercase_of_own lower, ← Query.retyped, itself] at single
  rw [answer.mem_iff_fits single hr, Subject.Fits, if_neg (other_space noUploader)]
  constructor
  · intro kept
    exact ⟨tag, ht, tagged, ⟨space, spaced, Query.holds_escape_retyped_iff.mpr kept⟩, by simp⟩
  · rintro same ⟨other, ho, work, ⟨value, hv, holds⟩, -⟩
    rw [same other ho work value hv] at holds
    exact Query.holds_escape_retyped_iff.mp holds

/-- A tag whose namespace has marks and two wildcards, and behind a U+0000 a third one. -/
private def oddTag : TagRow :=
  ⟨5, some ['r', '\\', ':', ' ', '?', '*', 'é', Char.ofNat 0, '_'], ['x'], 0⟩

private def drawer (tag : TagRow) : Connection where
  catalogue := { metadata := some ⟨[⟨5, none⟩, ⟨6, none⟩], by decide⟩, tags := some [tag] }

theorem quoted_namespace_found_drawer :
    Answers {} (drawer oddTag) (Query.enclosed
        ['r', '\\', ':', ' ', '?', '*', 'é', Char.ofNat 0, '_'] ++ [':']) [5] ∧
      (5 : Int) ∈ [(5 : Int)] ∧ ∀ x ∈ Like.upToNul
        ['r', '\\', ':', ' ', '?', '*', 'é', Char.ofNat 0, '_'], x ≠ '_' ∧ x ≠ '%' := by
  have answer : Answers {} (drawer oddTag) (Query.enclosed
      ['r', '\\', ':', ' ', '?', '*', 'é', Char.ofNat 0, '_'] ++ [':']) [5] :=
    ⟨_, .new, Reached.new.find_of_run rfl rfl⟩
  have row : ⟨5, none⟩ ∈ (drawer oddTag).catalogue.metadataRows := by decide
  have tag : oddTag ∈ (drawer oddTag).catalogue.tagRows := by decide
  obtain ⟨found, only⟩ := quoted_namespace_found row tag rfl rfl (by decide)
    (List.all_iff_forall_prop.mp (by decide)) (by decide) (by decide) (by decide)
    answer
  have inside : (5 : Int) ∈ [(5 : Int)] :=
    found (.inr (List.all_iff_forall_prop.mp (by decide)))
  exact ⟨answer, inside, (only (by decide) inside).resolve_left (by decide)⟩

/-- Not every namespace can be typed where wildcards are read: `a_b` comes back as `a?b`. -/
theorem underscored_namespace_lost :
    ¬ ∀ (options : Options) (c : Connection) (row : MetadataRow) (tag : TagRow) (space : List Char)
      (ids : List Int), row ∈ c.catalogue.metadataRows → tag ∈ c.catalogue.tagRows →
      tag.work = row.work → tag.space = some space → space ≠ [] →
      (∀ x ∈ space, Text.lowerChar x = [x]) → Query.Quotable space → space ≠ Namespace.uploader →
      Namespace.resolve space = space →
      Answers options c (Query.enclosed space ++ [':']) ids → row.work ∈ ids := by
  intro all
  have answer : Answers {} (drawer ⟨5, some ['a', '_', 'b'], ['x'], 0⟩)
      (Query.enclosed ['a', '_', 'b'] ++ [':']) [] := ⟨_, .new, Reached.new.find_of_run rfl rfl⟩
  have found := all {} _ ⟨5, none⟩ ⟨5, some ['a', '_', 'b'], ['x'], 0⟩ ['a', '_', 'b'] []
    (by decide) (by decide) rfl rfl (by decide) (List.all_iff_forall_prop.mp (by decide))
    (by decide) (by decide) (by decide) answer
  exact absurd found (by decide)

end Searcher

end TagQuery
