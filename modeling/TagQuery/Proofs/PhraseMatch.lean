import Mathlib.Data.List.TakeWhile
import TagQuery.Proofs.Matching
import TagQuery.Text.Fold

/-! The patterns of a phrase are texts in which literals are escaped, read back into tokens and run
against a value with backtracking. Nothing of this shows: as long as no character ends the
comparison or is taken for another, a value matches the exact pattern if it splits into consecutive
parts, one for each piece of the phrase, and the other pattern if some part of it does. -/
namespace TagQuery

section Splits

variable {α β : Type} {xs : List α} {text : List Char}

theorem splits_map_iff {takes : β → List Char → Prop} (f : α → β) :
    Splits takes (xs.map f) text ↔ Splits (fun x => takes (f x)) xs text := by
  induction xs generalizing text with
  | nil => simp
  | cons x xs ih =>
    rw [List.map_cons, splits_cons, splits_cons]
    simp only [ih]

/-- To split along items that are made of smaller ones is to split along the smaller ones. -/
theorem splits_flatMap {takes : β → List Char → Prop} (f : α → List β) :
    Splits takes (xs.flatMap f) text ↔ Splits (fun x => Splits takes (f x)) xs text := by
  induction xs generalizing text with
  | nil => simp
  | cons x xs ih =>
    rw [List.flatMap_cons, splits_append, splits_cons]
    simp only [ih]

/-- Only what an item takes of the parts of the text matters. -/
theorem splits_congr {takes takes' : α → List Char → Prop}
    (h : ∀ x ∈ xs, ∀ piece, piece <:+: text → (takes x piece ↔ takes' x piece)) :
    Splits takes xs text ↔ Splits takes' xs text := by
  induction xs generalizing text with
  | nil => simp
  | cons x xs ih =>
    rw [splits_cons, splits_cons]
    refine exists₂_congr fun piece rest => and_congr_right fun cut => ?_
    have first : takes x piece ↔ takes' x piece :=
      h x List.mem_cons_self piece (cut ▸ (List.prefix_append piece rest).isInfix)
    have others : Splits takes xs rest ↔ Splits takes' xs rest := by
      refine ih fun y hy part inside => h y (List.mem_cons_of_mem x hy) part ?_
      exact inside.trans (cut ▸ (List.suffix_append piece rest).isInfix)
    rw [first, others]

end Splits

/-- Characters that neither end the comparison nor are taken for another character. -/
def Like.isOrdinary (c : Char) : Bool :=
  c.toNat != 0 && c.toNat != 0xFFFE && c.toNat != 0xFFFF

theorem Like.key_of_isOrdinary {c : Char} (h : isOrdinary c = true) : key c = c.toLower := by
  simp only [isOrdinary, Bool.and_eq_true, bne_iff_ne] at h
  simp [key, h.1.2, h.2]

theorem Like.upToNul_of_isOrdinary {text : List Char} (h : ∀ c ∈ text, isOrdinary c = true) :
    upToNul text = text := by
  refine List.takeWhile_eq_self_iff.mpr fun c hc => ?_
  have ordinary := h c hc
  rw [bne_iff_ne]
  rintro rfl
  exact absurd ordinary (by decide)

namespace Phrase

/-- What a place takes: a character up to the case of ASCII letters, any character, or any run. -/
def Place.Takes : Place → List Char → Prop
  | .char a, piece => ∃ c, piece = [c] ∧ a.toLower = c.toLower
  | .one, piece => ∃ c, piece = [c]
  | .many, _ => True

def Place.isOrdinary : Place → Bool
  | .char c => Like.isOrdinary c
  | _ => true

variable {places : List Place} {value : List Char}

theorem visible_of_isOrdinary (h : ∀ x ∈ places, x.isOrdinary = true) : visible places = places := by
  refine List.takeWhile_eq_self_iff.mpr fun x hx => ?_
  have ordinary := h x hx
  rw [bne_iff_ne]
  rintro rfl
  exact absurd ordinary (by decide)

/-- A pattern that is written from places is matched by the values that split along them. -/
theorem holds_likePlaces_iff (h : ∀ x ∈ places, x.isOrdinary = true)
    (hv : ∀ c ∈ value, Like.isOrdinary c = true) :
    Like.holds (places.flatMap likePlace) value = true ↔ Splits Place.Takes places value := by
  rw [holds_likePlaces, visible_of_isOrdinary h, Like.upToNul_of_isOrdinary hv, splits_map_iff]
  apply splits_congr
  intro x hx piece inside
  cases x with
  | one | many => rfl
  | char a =>
    have key : ∀ c ∈ piece, (Like.key a = Like.key c ↔ a.toLower = c.toLower) := by
      intro c hc
      rw [Like.key_of_isOrdinary (h _ hx), Like.key_of_isOrdinary (hv c (inside.subset hc))]
    refine exists_congr fun c => and_congr_right fun single => ?_
    exact key c (single ▸ List.mem_singleton_self c)

theorem splits_around : Splits Place.Takes (around places) value ↔
    ∃ part, part <:+: value ∧ Splits Place.Takes places part := by
  rw [around, splits_cons]
  constructor
  · rintro ⟨before, rest, rfl, -, split⟩
    obtain ⟨part, behind, rfl, inside, -⟩ := splits_append.mp split
    exact ⟨part, ⟨before, behind, by rw [List.append_assoc]⟩, inside⟩
  · rintro ⟨part, ⟨before, behind, rfl⟩, inside⟩
    refine ⟨before, part ++ behind, by rw [List.append_assoc], trivial, ?_⟩
    refine splits_append.mpr ⟨part, behind, rfl, inside, ?_⟩
    exact splits_cons.mpr ⟨behind, [], (List.append_nil behind).symm, trivial, .nil⟩

theorem holds_around_iff (h : ∀ x ∈ places, x.isOrdinary = true)
    (hv : ∀ c ∈ value, Like.isOrdinary c = true) :
    Like.holds ((around places).flatMap likePlace) value = true ↔
      ∃ part, part <:+: value ∧ Splits Place.Takes places part := by
  have ordinary : ∀ x ∈ around places, x.isOrdinary = true := by
    intro x hx
    simp only [around, List.mem_cons, List.mem_append, List.not_mem_nil, or_false] at hx
    rcases hx with rfl | hx | rfl
    · rfl
    · exact h x hx
    · rfl
  rw [holds_likePlaces_iff ordinary hv, splits_around]

end Phrase

/-- What a piece takes: its text up to the case of ASCII letters, any one character, or any run. -/
def Piece.Takes : Piece → List Char → Prop
  | .lit chars, part => Text.eqIgnoringAsciiCase chars part = true
  | .one, part => ∃ c, part = [c]
  | .many, _ => True

theorem Phrase.splits_map_char_iff {chars part : List Char} :
    Splits Place.Takes (chars.map .char) part ↔ Text.eqIgnoringAsciiCase chars part = true := by
  rw [Text.eqIgnoringAsciiCase, beq_iff_eq]
  induction chars generalizing part with
  | nil => simp [eq_comm]
  | cons a chars ih =>
    rw [List.map_cons, splits_cons, List.map_cons, eq_comm, List.map_eq_cons_iff]
    constructor
    · rintro ⟨_, rest, rfl, ⟨c, rfl, same⟩, others⟩
      exact ⟨c, rest, rfl, same.symm, (ih.mp others).symm⟩
    · rintro ⟨c, rest, rfl, same, others⟩
      exact ⟨[c], rest, rfl, ⟨c, rfl, same.symm⟩, ih.mpr others.symm⟩

theorem Piece.takes_iff (piece : Piece) (part : List Char) :
    Splits Phrase.Place.Takes (Phrase.placesOf piece) part ↔ piece.Takes part := by
  have single : ∀ x : Phrase.Place, Splits Phrase.Place.Takes [x] part ↔ x.Takes part := by
    intro x
    rw [splits_cons]
    simp
  cases piece with
  | lit chars => exact Phrase.splits_map_char_iff
  | one => exact single .one
  | many => exact single .many

namespace Phrase

/-- No literal of the phrase has a character that ends the comparison or is taken for another. -/
def Ordinary (p : Phrase) : Prop :=
  ∀ chars, .lit chars ∈ p.pieces → ∀ c ∈ chars, Like.isOrdinary c = true

theorem Ordinary.places {p : Phrase} (h : p.Ordinary) : ∀ x ∈ p.places, x.isOrdinary = true := by
  intro x hx
  obtain ⟨piece, hp, inside⟩ := List.mem_flatMap.mp hx
  cases piece with
  | lit chars =>
    obtain ⟨c, hc, rfl⟩ := List.mem_map.mp inside
    exact h chars hp c hc
  | one | many =>
    rw [List.mem_singleton.mp inside]
    rfl

theorem ordinary_of_places {p : Phrase} (h : p.places.all Place.isOrdinary = true) :
    p.Ordinary := by
  intro chars hp c hc
  have inside : .char c ∈ p.places :=
    List.mem_flatMap.mpr ⟨.lit chars, hp, List.mem_map_of_mem hc⟩
  exact List.all_eq_true.mp h _ inside

theorem splits_places {p : Phrase} {part : List Char} :
    Splits Place.Takes p.places part ↔ Splits Piece.Takes p.pieces part := by
  rw [places, splits_flatMap]
  exact splits_congr fun piece _ part _ => piece.takes_iff part

/-- The patterns of a phrase are faithful to its pieces. A value matches the exact pattern if it
splits into consecutive parts, one for each piece in order, and the other pattern if something in it
does. -/
theorem holds_patterns_iff_splits {p : Phrase} {value : List Char} (hp : p.Ordinary)
    (hv : ∀ c ∈ value, Like.isOrdinary c = true) :
    (Like.holds p.exactPattern value = true ↔ Splits Piece.Takes p.pieces value) ∧
    (Like.holds p.containedPattern value = true ↔
      ∃ part, part <:+: value ∧ Splits Piece.Takes p.pieces part) := by
  rw [exactPattern_eq, containedPattern_eq, holds_likePlaces_iff hp.places hv,
    holds_around_iff hp.places hv]
  simp only [splits_places, and_self]

/-- Marks of patterns next to holes, and an escape character at the end. -/
private def marked : Phrase :=
  ⟨[.lit ['%', 'a'], .one, .lit ['\\', '_'], .many, .lit ['\\']], by decide⟩

private def spelled : List Char := ['%', 'A', 'é', '\\', '_', 'x', 'y', '\\']

theorem holds_patterns_iff_splits_marked :
    marked.Ordinary ∧ (∀ c ∈ 'x' :: spelled, Like.isOrdinary c = true) ∧
      Splits Piece.Takes marked.pieces spelled ∧
      ¬ Splits Piece.Takes marked.pieces ('x' :: spelled) ∧
      ∃ part, part <:+: 'x' :: spelled ∧ Splits Piece.Takes marked.pieces part := by
  have ordinary : marked.Ordinary := by
    intro chars hc
    simp only [marked, List.mem_cons, List.not_mem_nil, or_false] at hc
    rcases hc with same | impossible | same | impossible | same
    · cases same
      exact List.all_eq_true.mp (by decide)
    · cases impossible
    · cases same
      exact List.all_eq_true.mp (by decide)
    · cases impossible
    · cases same
      exact List.all_eq_true.mp (by decide)
  have longer : ∀ c ∈ 'x' :: spelled, Like.isOrdinary c = true :=
    List.all_eq_true.mp (by decide)
  have exact' := holds_patterns_iff_splits ordinary fun c hc => longer c (List.mem_cons_of_mem _ hc)
  have around' := holds_patterns_iff_splits ordinary longer
  refine ⟨ordinary, longer, exact'.1.mp rfl, fun split => ?_, around'.2.mp rfl⟩
  exact absurd (around'.1.mpr split) (by decide)

end Phrase

end TagQuery
