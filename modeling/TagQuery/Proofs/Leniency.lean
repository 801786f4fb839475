import TagQuery.Proofs.Matching
import TagQuery.Proofs.Meaning

/-! The lenient patterns of a phrase are not weaker forms of its exact pattern: the phrase is cut
into words and its delimiters are dropped. But the first word is written in the exact pattern as it
stands, behind delimiters only, so a value that matches the phrase has the word in it. Main
statement: what matches exactly matches leniently, and so making all clauses exact can only lose
works if none is excluded, and can only win works if all are. -/
namespace TagQuery

namespace Phrase

theorem cut_first (places : List Place) :
    ∃ run runs, places.foldr cutBefore [[]] = run :: runs ∧ run <+: places := by
  induction places with
  | nil => exact ⟨[], [], rfl, List.prefix_rfl⟩
  | cons x places ih =>
    obtain ⟨run, runs, cut, starts⟩ := ih
    rw [List.foldr_cons, cut, cutBefore]
    split
    · exact ⟨[], run :: runs, rfl, List.nil_prefix⟩
    · exact ⟨x :: run, runs, rfl, List.cons_prefix_cons.mpr ⟨rfl, starts⟩⟩

/-- The first run that is not empty has only dividing places before it. -/
theorem first_run {places word : List Place} {others : List (List Place)}
    (h : (places.foldr cutBefore [[]]).filter (· ≠ []) = word :: others) :
    ∃ before behind, places = before ++ (word ++ behind) ∧ ∀ x ∈ before, divides x = true := by
  induction places with
  | nil => cases h
  | cons x places ih =>
    obtain ⟨run, runs, cut, behind, whole⟩ := cut_first places
    rw [cut] at ih
    rw [List.foldr_cons, cut, cutBefore] at h
    split at h
    · next dividing =>
      obtain ⟨before, behind, rfl, divided⟩ := ih h
      exact ⟨x :: before, behind, rfl, List.forall_mem_cons.mpr ⟨dividing, divided⟩⟩
    · obtain ⟨rfl, -⟩ := List.cons.inj h
      exact ⟨[], behind, by rw [← whole]; rfl, by simp⟩

theorem words_first {p : Phrase} {word : List Place} {others : List (List Place)}
    (h : p.words = word :: others) :
    ∃ before behind, p.places = before ++ (word ++ behind) ∧ ∀ x ∈ before, divides x = true := by
  unfold words at h
  cases runs : (p.places.foldr cutBefore [[]]).filter (· ≠ []) with
  | nil =>
    rw [runs] at h
    cases h
  | cons run others =>
    rw [runs, List.eraseDups_cons] at h
    rw [← (List.cons.inj h).1]
    exact first_run runs

/-- A run at the end takes whatever stood behind, also if all of that is lost. -/
theorem splits_visible_many {places behind : List Place} {value : List Char}
    (h : Splits Like.Token.Takes ((visible (places ++ behind)).map tokenOf) value) :
    Splits Like.Token.Takes ((visible (places ++ [.many])).map tokenOf) value := by
  induction places generalizing value with
  | nil =>
    show Splits Like.Token.Takes [.many] value
    exact splits_cons.mpr ⟨value, [], (List.append_nil value).symm, trivial, .nil⟩
  | cons x places ih =>
    rw [List.cons_append, visible_cons] at h ⊢
    split
    · next nul =>
      rw [if_pos nul] at h
      exact h
    · next kept =>
      rw [if_neg kept] at h
      obtain ⟨piece, rest, rfl, taken, others⟩ := splits_cons.mp h
      exact .cons taken (ih others)

/-- A value that matches some places has in it what a part of them matches, unless the places before
the part cut it off. -/
theorem holds_around {before places behind : List Place} {value : List Char}
    (kept : ∀ x ∈ before, x ≠ .char (Char.ofNat 0))
    (h : Like.holds ((before ++ (places ++ behind)).flatMap likePlace) value = true) :
    Like.holds ((around places).flatMap likePlace) value = true := by
  rw [holds_likePlaces] at h ⊢
  rw [visible_append kept, List.map_append, splits_append] at h
  obtain ⟨front, back, cut, -, others⟩ := h
  rw [around, visible_cons, if_neg (by decide), cut]
  exact .cons trivial (splits_visible_many others)

theorem holds_containedPattern {p : Phrase} {value : List Char}
    (h : Like.holds p.exactPattern value = true) : Like.holds p.containedPattern value = true := by
  have whole : Like.holds (([] ++ (p.places ++ [])).flatMap likePlace) value = true := by
    rw [List.append_nil, List.nil_append, ← exactPattern_eq]
    exact h
  rw [containedPattern_eq]
  refine holds_around ?_ whole
  simp

theorem holds_wordPattern {p : Phrase} {word : List Place} {others : List (List Place)}
    (first : p.words = word :: others) {value : List Char}
    (h : Like.holds p.exactPattern value = true) : Like.holds (wordPattern word) value = true := by
  obtain ⟨before, behind, whole, divided⟩ := words_first first
  have kept : ∀ x ∈ before, x ≠ .char (Char.ofNat 0) := by
    rintro x hx rfl
    exact absurd (divided _ hx) (by decide)
  rw [exactPattern_eq, whole] at h
  rw [wordPattern_eq]
  exact holds_around kept h

theorem holds_lenientPatterns {p : Phrase} {value : List Char}
    (h : Like.holds p.exactPattern value = true) :
    ∃ pattern ∈ p.lenientPatterns, Like.holds pattern value = true := by
  unfold lenientPatterns
  split
  · next word word' others cut =>
    exact ⟨wordPattern word, List.mem_cons_self, holds_wordPattern cut h⟩
  · exact ⟨p.containedPattern, List.mem_singleton_self _, holds_containedPattern h⟩

theorem FitsName.of_exact {p : Phrase} {name : List Char} (h : p.FitsName true name)
    (exact : Bool) : p.FitsName exact name := by
  cases exact with
  | true => exact h
  | false => exact holds_lenientPatterns h

theorem FitsTitle.of_exact {p : Phrase} {title : List Char} (h : p.FitsTitle true title)
    (exact : Bool) : p.FitsTitle exact title := by
  cases exact with
  | true => exact h
  | false => exact holds_containedPattern h

end Phrase

section Clauses

variable {c : Catalogue} {row : MetadataRow}

theorem Subject.Fits.of_exact {subject : Subject} (h : subject.Fits c row true) (exact : Bool) :
    subject.Fits c row exact := by
  cases subject with
  | text p =>
    rcases h with ⟨tag, ht, work, fits⟩ | ⟨title, ht, work, fits⟩
    · exact .inl ⟨tag, ht, work, fits.of_exact exact⟩
    · exact .inr ⟨title, ht, work, fits.of_exact exact⟩
  | tag space phrase =>
    simp only [Fits] at h ⊢
    split
    · next uploader =>
      -- the uploader is matched as a whole in any case
      rw [if_pos uploader] at h
      exact h
    · next tagged =>
      rw [if_neg tagged] at h
      obtain ⟨tag, ht, work, spaced, named⟩ := h
      exact ⟨tag, ht, work, spaced, fun p hp => (named p hp).of_exact exact⟩

theorem Clause.satisfied_of_setExact {clause : Clause} (included : clause.excluded = false)
    (h : (clause.setExact true).Satisfied c row) : clause.Satisfied c row := by
  simp only [Satisfied, setExact, included, Bool.false_eq_true, if_false] at h ⊢
  exact h.of_exact clause.exact

theorem Clause.satisfied_setExact {clause : Clause} (excluded : clause.excluded = true)
    (h : clause.Satisfied c row) : (clause.setExact true).Satisfied c row := by
  simp only [Satisfied, setExact, excluded, if_true] at h ⊢
  exact fun fits => h (fits.of_exact clause.exact)

end Clauses

namespace Connection

variable {c : Connection} {clauses : List Clause} {ids ids' : List Int}

/-- What one list of clauses asks of a row may be compared with what another asks, and then so may
the works that are found. -/
theorem subset_of_satisfied {others : List Clause}
    (h : c.search (Plan.ofClauses clauses) (Plan.ofClauses clauses).statement.params = .ok ids)
    (h' : c.search (Plan.ofClauses others) (Plan.ofClauses others).statement.params = .ok ids')
    (stronger : ∀ row, (∀ clause ∈ clauses, clause.Satisfied c.catalogue row) →
      ∀ clause ∈ others, clause.Satisfied c.catalogue row) : ids ⊆ ids' := by
  intro id hid
  obtain ⟨row, hr, work, satisfied⟩ := (mem_search h id).mp hid
  exact (mem_search h' id).mpr ⟨row, hr, work, stronger row satisfied⟩

/-- Exactness only narrows. A value that matches a phrase exactly matches one of its lenient
patterns, and its title pattern. So if no clause is excluded, making all of them exact finds no more
works; and if all are excluded, it finds no fewer. -/
theorem exact_narrows :
    (∀ (p : Phrase) (value : List Char), Like.holds p.exactPattern value = true →
      (∃ pattern ∈ p.lenientPatterns, Like.holds pattern value = true) ∧
        Like.holds (p.titlePattern false) value = true) ∧
    ∀ (c : Connection) (clauses exacts : List Clause) (ids ids' : List Int),
      exacts = clauses.map (·.setExact true) →
      c.search (Plan.ofClauses clauses) (Plan.ofClauses clauses).statement.params = .ok ids →
      c.search (Plan.ofClauses exacts) (Plan.ofClauses exacts).statement.params = .ok ids' →
      ((∀ clause ∈ clauses, clause.excluded = false) → ids' ⊆ ids) ∧
      ((∀ clause ∈ clauses, clause.excluded = true) → ids ⊆ ids') := by
  refine ⟨fun p value h => ⟨Phrase.holds_lenientPatterns h, Phrase.holds_containedPattern h⟩, ?_⟩
  rintro c clauses exacts ids ids' rfl h h'
  constructor
  · intro included
    apply subset_of_satisfied h' h
    intro row satisfied clause hc
    exact Clause.satisfied_of_setExact (included clause hc)
      (satisfied _ (List.mem_map_of_mem hc))
  · intro excluded
    apply subset_of_satisfied h h'
    intro row satisfied exact' mapped
    obtain ⟨clause, hc, rfl⟩ := List.mem_map.mp mapped
    exact Clause.satisfied_setExact (excluded clause hc) (satisfied clause hc)

/-- A work with the whole phrase as a tag, one with a word of it, one with the phrase in its title,
and one with nothing of it. -/
private def cattery : Connection where
  catalogue :=
    { metadata := some ⟨[⟨1, none⟩, ⟨2, none⟩, ⟨3, none⟩, ⟨4, none⟩], by decide⟩
      tags := some [⟨1, none, ['B', 'i', 'g', ' ', 'c', 'a', 't'], 0⟩,
        ⟨2, none, ['c', 'a', 't', 's'], 0⟩]
      titles := some [⟨3, ['a', ' ', 'b', 'i', 'g', ' ', 'c', 'a', 't'], 0⟩] }

private def bigCat : Phrase := ⟨[.lit ['b', 'i', 'g', ' ', 'c'], .one, .lit ['t']], by decide⟩

private def cats (excluded exact : Bool) : List Clause := [⟨.text bigCat, excluded, exact⟩]

theorem exact_narrows_cattery :
    Like.holds bigCat.exactPattern ['B', 'i', 'g', ' ', 'c', 'a', 't'] = true ∧
      (∃ pattern ∈ bigCat.lenientPatterns,
        Like.holds pattern ['B', 'i', 'g', ' ', 'c', 'a', 't'] = true) ∧
      cattery.search (Plan.ofClauses (cats false false))
        (Plan.ofClauses (cats false false)).statement.params = .ok [1, 2, 3] ∧
      cattery.search (Plan.ofClauses (cats false true))
        (Plan.ofClauses (cats false true)).statement.params = .ok [1] ∧
      [(1 : Int)] ⊆ [1, 2, 3] ∧
      cattery.search (Plan.ofClauses (cats true false))
        (Plan.ofClauses (cats true false)).statement.params = .ok [4] ∧
      cattery.search (Plan.ofClauses (cats true true))
        (Plan.ofClauses (cats true true)).statement.params = .ok [2, 3, 4] ∧
      [(4 : Int)] ⊆ [2, 3, 4] := by
  obtain ⟨patterns, searches⟩ := exact_narrows
  have whole : Like.holds bigCat.exactPattern ['B', 'i', 'g', ' ', 'c', 'a', 't'] = true := by rfl
  have some_tag : cattery.search (Plan.ofClauses (cats false false))
      (Plan.ofClauses (cats false false)).statement.params = .ok [1, 2, 3] := search_of_run rfl rfl
  have exact_tag : cattery.search (Plan.ofClauses (cats false true))
      (Plan.ofClauses (cats false true)).statement.params = .ok [1] := search_of_run rfl rfl
  have no_tag : cattery.search (Plan.ofClauses (cats true false))
      (Plan.ofClauses (cats true false)).statement.params = .ok [4] := search_of_run rfl rfl
  have no_exact_tag : cattery.search (Plan.ofClauses (cats true true))
      (Plan.ofClauses (cats true true)).statement.params = .ok [2, 3, 4] := search_of_run rfl rfl
  exact ⟨whole, (patterns bigCat _ whole).1, some_tag, exact_tag,
    (searches cattery _ _ _ _ rfl some_tag exact_tag).1 (by decide), no_tag, no_exact_tag,
    (searches cattery _ _ _ _ rfl no_tag no_exact_tag).2 (by decide)⟩

end Connection

end TagQuery
