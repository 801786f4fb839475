import Mathlib.Data.Set.Function
import TagQuery.Proofs.Matching
import TagQuery.Proofs.PlanShape
import TagQuery.Proofs.Segments

/-! In a pattern the marks of holes stand next to characters that are escaped because they look like
such marks. Read from the front, an escape character and what it escapes are one place, so nothing
runs together: a pattern gives back the places that it was written from, and these give back the
pieces of the phrase as far as any pattern shows them. Main statement: two phrases have the same
exact pattern if and only if they have the same normal form; and a phrase that a line spells is its
own normal form. -/
namespace TagQuery

namespace Piece

/-- The pieces without empty literals, and with adjacent literals merged. -/
def normalized (pieces : List Piece) : List Piece :=
  (pieces.filter (· ≠ .lit [])).foldr mergeBefore []

theorem normalized_eq (pieces : List Piece) :
    normalized pieces = (pieces.flatMap Phrase.placesOf).foldr Query.joinPlace [] := by
  unfold normalized
  induction pieces with
  | nil => rfl
  | cons p pieces ih =>
    rw [List.flatMap_cons, List.foldr_append, ← ih]
    by_cases empty : p = .lit []
    · rw [empty, List.filter_cons_of_neg (by simp)]
      rfl
    · rw [List.filter_cons_of_pos (by simpa using empty), List.foldr_cons]
      cases p with
      | lit chars =>
        have nonempty : chars ≠ [] := fun nothing => empty (congrArg lit nothing)
        exact (Query.foldr_joinPlace_lit nonempty _).symm
      | one | many => rfl

theorem flatMap_placesOf_joinPlace (x : Phrase.Place) (pieces : List Piece) :
    (Query.joinPlace x pieces).flatMap Phrase.placesOf =
      x :: pieces.flatMap Phrase.placesOf := by
  fun_cases Query.joinPlace x pieces <;> rfl

theorem flatMap_placesOf_foldr (places : List Phrase.Place) :
    (places.foldr Query.joinPlace []).flatMap Phrase.placesOf = places := by
  induction places with
  | nil => rfl
  | cons x places ih => rw [List.foldr_cons, flatMap_placesOf_joinPlace, ih]

end Piece

namespace Phrase

theorem normalized_eq_iff {p q : Phrase} :
    Piece.normalized p.pieces = Piece.normalized q.pieces ↔ p.places = q.places := by
  rw [Piece.normalized_eq, Piece.normalized_eq]
  have found : Function.LeftInverse (List.flatMap placesOf) (List.foldr Query.joinPlace []) :=
    Piece.flatMap_placesOf_foldr
  exact found.injective.eq_iff

/-- A phrase that a line can spell is in normal form. -/
theorem WellFormed.normalized {holes : Bool} {p : Phrase} (h : p.WellFormed holes) :
    Piece.normalized p.pieces = p.pieces := by
  obtain ⟨literals, shape⟩ := h
  have chain : p.pieces.IsChain Piece.Apart := by
    cases holes with
    | true => exact shape
    | false =>
      obtain ⟨chars, single⟩ := shape
      rw [single]
      exact .singleton _
  rw [Piece.normalized_eq]
  exact Query.foldr_joinPlace_places (fun chars hc => (literals chars hc).1) chain

end Phrase

namespace Like

/-- Reads a pattern into places. A character behind an escape character stands for itself. -/
def readPlaces : List Char → List Phrase.Place
  | [] => []
  | '\\' :: c :: rest => .char c :: readPlaces rest
  | c :: rest =>
    (if c == '_' then .one else if c == '%' then .many else .char c) :: readPlaces rest

/-- Reads a pattern into pieces: adjacent characters make one literal. -/
def decode (pattern : List Char) : List Piece :=
  (readPlaces pattern).foldr Query.joinPlace []

/-- Whether every escape character that is not itself escaped stands before a character that has to
be escaped. -/
def wellEscaped : List Char → Bool
  | [] => true
  | '\\' :: c :: rest => (c == '\\' || c == '_' || c == '%') && wellEscaped rest
  | c :: rest => c != '\\' && wellEscaped rest

/-- A character is written behind an escape character if it looks like a mark, and else as it is. -/
theorem escapeChar_cases (c : Char) :
    (escapeChar c = ['\\', c] ∧ (c == '\\' || c == '_' || c == '%') = true) ∨
      escapeChar c = [c] ∧ c ≠ '\\' ∧ c ≠ '_' ∧ c ≠ '%' := by
  unfold escapeChar
  split
  · next marked => exact .inl ⟨rfl, marked⟩
  · next plain =>
    simp only [Bool.or_eq_true, beq_iff_eq, not_or, and_assoc] at plain
    exact .inr ⟨rfl, plain⟩

theorem readPlaces_likePlace (x : Phrase.Place) (rest : List Char) :
    readPlaces (Phrase.likePlace x ++ rest) = x :: readPlaces rest := by
  cases x with
  | one => simp [Phrase.likePlace, readPlaces]
  | many => simp [Phrase.likePlace, readPlaces]
  | char c =>
    rw [Phrase.likePlace]
    rcases escapeChar_cases c with ⟨escaped, -⟩ | ⟨plain, notEscape, notOne, notMany⟩
    · rw [escaped]
      rfl
    · rw [plain, List.singleton_append, readPlaces.eq_3 _ _ fun _ _ escape _ => notEscape escape]
      simp [notOne, notMany]

theorem readPlaces_likePlaces (places : List Phrase.Place) :
    readPlaces (places.flatMap Phrase.likePlace) = places := by
  induction places with
  | nil => rfl
  | cons x places ih => rw [List.flatMap_cons, readPlaces_likePlace, ih]

theorem wellEscaped_likePlace (x : Phrase.Place) (rest : List Char) :
    wellEscaped (Phrase.likePlace x ++ rest) = wellEscaped rest := by
  cases x with
  | one => simp [Phrase.likePlace, wellEscaped]
  | many => simp [Phrase.likePlace, wellEscaped]
  | char c =>
    rw [Phrase.likePlace]
    rcases escapeChar_cases c with ⟨escaped, marked⟩ | ⟨plain, notEscape, -⟩
    · rw [escaped, List.cons_append, List.singleton_append, wellEscaped, marked, Bool.true_and]
    · rw [plain, List.singleton_append, wellEscaped.eq_3 _ _ fun _ _ escape _ => notEscape escape]
      simp [notEscape]

theorem wellEscaped_likePlaces (places : List Phrase.Place) :
    wellEscaped (places.flatMap Phrase.likePlace) = true := by
  induction places with
  | nil => rfl
  | cons x places ih => rw [List.flatMap_cons, wellEscaped_likePlace, ih]

end Like

namespace Phrase

theorem likePlaces_injective : Function.Injective (List.flatMap likePlace) :=
  Function.LeftInverse.injective Like.readPlaces_likePlaces

theorem wordPattern_injective : Function.Injective wordPattern := by
  intro word word' same
  have texts := List.append_cancel_right (List.cons.inj same).2
  exact likePlaces_injective texts

/-- All patterns of a phrase are written from places. -/
theorem exists_places {p : Phrase} {pattern : List Char}
    (h : pattern ∈ p.exactPattern :: p.containedPattern :: p.lenientPatterns) :
    ∃ places : List Place, pattern = places.flatMap likePlace := by
  rcases List.mem_cons.mp h with rfl | h
  · exact ⟨p.places, exactPattern_eq p⟩
  rcases List.mem_cons.mp h with rfl | h
  · exact ⟨around p.places, containedPattern_eq p⟩
  unfold lenientPatterns at h
  split at h
  · obtain ⟨word, -, rfl⟩ := List.mem_map.mp h
    exact ⟨around word, wordPattern_eq word⟩
  · rw [List.mem_singleton.mp h]
    exact ⟨around p.places, containedPattern_eq p⟩

end Phrase

theorem Like.escape_injective : Function.Injective escape := by
  intro text text' same
  rw [escape_eq, escape_eq] at same
  have places := Phrase.likePlaces_injective same
  exact List.map_injective_iff.mpr (fun _ _ => Phrase.Place.char.inj) places

def Query.spelled : Set Phrase :=
  {p | ∃ holes line, ∃ c ∈ read holes line, c.phrase? = some p}

theorem Query.normalized_of_spelled {p : Phrase} (h : p ∈ spelled) :
    Piece.normalized p.pieces = p.pieces := by
  obtain ⟨holes, line, ⟨subject, excluded, exact⟩, hc, asked⟩ := h
  have wellFormed := wellFormed_read holes line _ hc
  cases subject with
  | text q =>
    cases asked
    exact wellFormed.normalized
  | tag space phrase => exact (wellFormed.2 p asked).normalized

namespace Phrase

theorem exactPattern_eq_iff {p q : Phrase} :
    p.exactPattern = q.exactPattern ↔
      Piece.normalized p.pieces = Piece.normalized q.pieces := by
  rw [normalized_eq_iff, exactPattern_eq, exactPattern_eq]
  exact likePlaces_injective.eq_iff

/-- Exact patterns can be read back: what is read is the normal form of the phrase. So phrases have
the same exact pattern if and only if they have the same normal form, and different phrases that lines
spell have different ones. Escaped texts can be told apart, and in no pattern does an escape character
escape nothing, or what needs no escape. -/
theorem exactPattern_decodable :
    (∀ p : Phrase, Like.decode p.exactPattern = Piece.normalized p.pieces) ∧
    (∀ p q : Phrase, p.exactPattern = q.exactPattern ↔
      Piece.normalized p.pieces = Piece.normalized q.pieces) ∧
    Set.InjOn exactPattern Query.spelled ∧
    Function.Injective Like.escape ∧
    (∀ text, Like.wellEscaped (Like.escape text) = true) ∧
    ∀ p : Phrase, ∀ pattern ∈ p.exactPattern :: p.containedPattern :: p.lenientPatterns,
      Like.wellEscaped pattern = true := by
  refine ⟨fun p => ?_, fun p q => exactPattern_eq_iff, ?_, Like.escape_injective, ?_, ?_⟩
  · rw [Like.decode, exactPattern_eq, Like.readPlaces_likePlaces, Piece.normalized_eq]
    rfl
  · intro p hp q hq same
    have pieces := exactPattern_eq_iff.mp same
    rw [Query.normalized_of_spelled hp, Query.normalized_of_spelled hq] at pieces
    cases p
    cases q
    cases pieces
    rfl
  · intro text
    rw [Like.escape_eq]
    exact Like.wellEscaped_likePlaces _
  · intro p pattern hp
    obtain ⟨places, rfl⟩ := exists_places hp
    exact Like.wellEscaped_likePlaces places

/-- What a line says of an underscore where it is a character, and where it is a hole. -/
private def underscore : Phrase := ⟨[.lit ['a', '_']], by decide⟩

private def hole : Phrase := ⟨[.lit ['a'], .one], by decide⟩

private def torn : Phrase := ⟨[.lit ['a'], .lit [], .lit ['_']], by decide⟩

theorem exactPattern_decodable_underscore :
    Like.decode torn.exactPattern = [.lit ['a', '_']] ∧
      torn.exactPattern = underscore.exactPattern ∧
      underscore ∈ Query.spelled ∧ hole ∈ Query.spelled ∧
      underscore.exactPattern ≠ hole.exactPattern ∧
      Like.wellEscaped underscore.containedPattern = true := by
  obtain ⟨decoded, same_iff, injective, -, -, escaped⟩ := exactPattern_decodable
  have literal : underscore ∈ Query.spelled :=
    ⟨false, ['A', '_'], _, List.mem_cons_self, rfl⟩
  have wildcard : hole ∈ Query.spelled := ⟨true, ['A', '_'], _, List.mem_cons_self, rfl⟩
  refine ⟨decoded torn, (same_iff torn underscore).mpr rfl, literal, wildcard, fun same => ?_, ?_⟩
  · exact absurd (injective literal wildcard same) (by decide)
  · exact escaped underscore _ (List.mem_cons_of_mem _ List.mem_cons_self)

end Phrase

end TagQuery
