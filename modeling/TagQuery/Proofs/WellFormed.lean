import Mathlib.Data.List.Chain
import TagQuery.Proofs.Separation

/-! Well-formed clauses are those that a search line can spell. Main statement: whatever the line,
the clauses read from it are well-formed. The invariant is on the draft, and has to hold of the open
run and the pieces before it apart: a literal is put among the pieces only together with the hole
that ends it. -/
namespace TagQuery

/-- Characters that a line keeps as they are: their own lowercase, no quote, no mark of exactness. -/
def Query.isKept (c : Char) : Bool :=
  Text.lowerChar c == [c] && c != '"' && c != '$'

/-- Characters of a literal. Those that are read as holes are not among them. -/
def Query.isLiteralChar (holes : Bool) (c : Char) : Bool :=
  isKept c && !(holes && (c == '?' || c == '_' || c == '*' || c == '%'))

/-- Characters of a namespace, where a hole is spelled `?` or `*`. -/
def Query.isSpaceChar (holes : Bool) (c : Char) : Bool :=
  isKept c && !(holes && (c == '_' || c == '%'))

def Piece.isLit : Piece → Bool
  | .lit _ => true
  | _ => false

def Piece.Apart (a b : Piece) : Prop :=
  ¬ (a.isLit = true ∧ b.isLit = true)

/-- Literals are not empty and never side by side; without holes there is one literal only. -/
def Phrase.WellFormed (holes : Bool) (p : Phrase) : Prop :=
  (∀ chars, .lit chars ∈ p.pieces →
    chars ≠ [] ∧ ∀ c ∈ chars, Query.isLiteralChar holes c = true) ∧
  if holes then p.pieces.IsChain Piece.Apart else ∃ chars, p.pieces = [.lit chars]

def Namespace.WellFormed (holes : Bool) (space : List Char) : Prop :=
  space ≠ [] ∧ resolve space = space ∧ ∀ c ∈ space, Query.isSpaceChar holes c = true

def Clause.WellFormed (holes : Bool) (c : Clause) : Prop :=
  match c.subject with
  | .text p => p.WellFormed holes
  | .tag space phrase => Namespace.WellFormed holes space ∧ ∀ p ∈ phrase, p.WellFormed holes

theorem Query.isSpaceChar_of_isLiteralChar {holes : Bool} {c : Char}
    (h : isLiteralChar holes c = true) : isSpaceChar holes c = true := by
  simp only [isLiteralChar, isSpaceChar, Bool.and_eq_true, Bool.not_eq_true'] at *
  refine ⟨h.1, ?_⟩
  cases holes with
  | false => rfl
  | true => simp_all

private theorem aliases_wellFormed : ∀ a ∈ Namespace.aliases,
    a.2 ≠ [] ∧ Namespace.resolve a.2 = a.2 ∧ a.2.all (Query.isSpaceChar true) = true := by
  decide +kernel

/-- Every name stands for a namespace that stands for itself. -/
theorem Namespace.wellFormed_resolve {holes : Bool} {name : List Char} (h : name ≠ [])
    (chars : ∀ c ∈ name, Query.isSpaceChar holes c = true) :
    Namespace.WellFormed holes (resolve name) := by
  cases found : aliases.find? fun a => Text.eqIgnoringAsciiCase a.1 name with
  | none =>
    have same : resolve name = name := by simp [resolve, found]
    rw [same]
    exact ⟨h, same, chars⟩
  | some a =>
    have canonical : resolve name = a.2 := by simp [resolve, found]
    obtain ⟨nonempty, fixed, spelled⟩ := aliases_wellFormed a (List.mem_of_find?_eq_some found)
    rw [canonical]
    refine ⟨nonempty, fixed, fun c hc => ?_⟩
    have strict := List.all_eq_true.mp spelled c hc
    simp only [Query.isSpaceChar, Bool.and_eq_true] at strict ⊢
    refine ⟨strict.1, ?_⟩
    cases holes with
    | false => rfl
    | true => exact strict.2

/-- A well-formed phrase is typed with characters of a namespace. -/
theorem Phrase.typed_wellFormed {holes : Bool} {p : Phrase} (h : p.WellFormed holes) :
    p.typed ≠ [] ∧ ∀ c ∈ p.typed, Query.isSpaceChar holes c = true := by
  obtain ⟨literals, shape⟩ := h
  constructor
  · obtain ⟨first, rest, cons⟩ := List.exists_cons_of_ne_nil p.nonempty
    rw [typed, cons, List.flatMap_cons]
    cases first with
    | lit chars =>
      have nonempty := (literals chars (by simp [cons])).1
      simp [Piece.typed, nonempty]
    | one => simp [Piece.typed]
    | many => simp [Piece.typed]
  · intro c hc
    obtain ⟨piece, hp, inPiece⟩ := List.mem_flatMap.mp hc
    cases piece with
    | lit chars => exact Query.isSpaceChar_of_isLiteralChar ((literals chars hp).2 c inPiece)
    | one | many =>
      cases holes with
      | false =>
        obtain ⟨chars, single⟩ := shape
        simp [single] at hp
      | true =>
        rw [List.mem_singleton.mp inPiece]
        decide +kernel

namespace Query

/-- What holds of a draft after any characters that are their own lowercase. -/
structure Draft.Sound (holes : Bool) (d : Draft) : Prop where
  run : ∀ c ∈ d.run, isLiteralChar holes c = true
  literals : ∀ chars, .lit chars ∈ d.pieces →
    chars ≠ [] ∧ ∀ c ∈ chars, isLiteralChar holes c = true
  chain : d.pieces.IsChain Piece.Apart
  last : ∀ p ∈ d.pieces.head?, p.isLit = false
  single : holes = false → d.pieces = []
  space : ∀ name ∈ d.space, Namespace.WellFormed holes name

namespace Draft

variable {holes : Bool} {d : Draft}

theorem sound_empty (holes : Bool) : Sound holes {} := by
  constructor <;> simp

theorem Sound.closed_literals (h : d.Sound holes) {chars : List Char} (hc : .lit chars ∈ d.closed) :
    chars ≠ [] ∧ ∀ c ∈ chars, isLiteralChar holes c = true := by
  unfold closed at hc
  split at hc
  · exact h.literals chars hc
  · next nonempty =>
    rcases List.mem_cons.mp hc with same | hc
    · cases same
      refine ⟨by simpa using nonempty, fun c hc => h.run c (List.mem_reverse.mp hc)⟩
    · exact h.literals chars hc

theorem Sound.closed_chain (h : d.Sound holes) : d.closed.IsChain Piece.Apart := by
  unfold closed
  split
  · exact h.chain
  · refine h.chain.cons fun p hp => ?_
    simp [Piece.Apart, h.last p hp]

theorem Sound.reverse_chain (h : d.Sound holes) : d.closed.reverse.IsChain Piece.Apart := by
  have back : (fun a b => Piece.Apart b a) = Piece.Apart := by
    funext a b
    simp [Piece.Apart, and_comm]
  rw [List.isChain_reverse, back]
  exact h.closed_chain

theorem Sound.phrase (h : d.Sound holes) {p : Phrase} (hp : d.phrase? = some p) :
    p.WellFormed holes := by
  have pieces : p.pieces = d.closed.reverse := by
    unfold phrase? Phrase.ofPieces? at hp
    split at hp
    · cases hp
    · next q qs same =>
      cases hp
      exact same.symm
  refine ⟨fun chars hc => h.closed_literals (by simpa [pieces] using hc), ?_⟩
  cases holes with
  | true =>
    rw [if_pos rfl, pieces]
    exact h.reverse_chain
  | false =>
    have none_before := h.single rfl
    by_cases empty : d.run = []
    · have nothing := p.nonempty
      simp [pieces, closed, empty, none_before] at nothing
    · exact ⟨d.run.reverse, by simp [pieces, closed, empty, none_before]⟩

private theorem sound_hole (h : d.Sound holes) (on : holes = true) {p : Piece}
    (hp : p.isLit = false) : (d.hole p).Sound holes where
  run := by simp [hole]
  literals chars hc := by
    rcases List.mem_cons.mp hc with same | hc
    · rw [← same] at hp
      cases hp
    · exact h.closed_literals hc
  chain := h.closed_chain.cons fun q _ => by simp [Piece.Apart, hp]
  last q hq := by
    cases hq
    exact hp
  single off := by
    rw [on] at off
    cases off
  space := h.space

private theorem sound_scope (h : d.Sound holes) : d.scope.Sound holes := by
  unfold scope
  split
  · next name named =>
    obtain ⟨nonempty, chars⟩ := Phrase.typed_wellFormed (h.phrase named)
    constructor <;> simp
    exact Namespace.wellFormed_resolve nonempty chars
  · exact h

/-- Every character that is its own lowercase keeps the invariant. -/
theorem Sound.feed (h : d.Sound holes) {c : Char} (own : Text.lowerChar c = [c]) :
    (d.feed holes c).Sound holes := by
  fun_cases Draft.feed holes d c with
  | case1 => exact { h with }
  | case2 notQuote isOne =>
    simp only [Bool.and_eq_true] at isOne
    exact sound_hole h isOne.1 rfl
  | case3 notQuote notOne isMany =>
    simp only [Bool.and_eq_true] at isMany
    exact sound_hole h isMany.1 rfl
  | case4 => exact { h with }
  | case5 => exact { h with }
  | case6 => exact sound_scope h
  | case7 notQuote notOne notMany notDash notExact notColon =>
    -- what is left is a character of the open run
    have literal : isLiteralChar holes c = true := by
      cases holes <;> simp_all [isLiteralChar, isKept]
    refine { h with run := fun x hx => ?_ }
    rcases List.mem_cons.mp hx with rfl | hx
    · exact literal
    · exact h.run x hx

theorem Sound.clause (h : d.Sound holes) {c : Clause} (hc : d.clause? = some c) :
    c.WellFormed holes := by
  unfold clause? at hc
  split at hc
  · next phrase name named =>
    cases hc
    exact ⟨h.space name (by simp [named]), fun p hp => h.phrase hp⟩
  · next p free read =>
    cases hc
    exact h.phrase read
  · cases hc

end Draft

theorem wellFormed_readFrom {holes : Bool} {d : Draft} {done : List Clause} {text : List Char}
    (hd : d.Sound holes) (hdone : ∀ c ∈ done, c.WellFormed holes)
    (own : ∀ c ∈ text, Text.lowerChar c = [c]) :
    ∀ c ∈ readFrom holes d done text, c.WellFormed holes := by
  have completed : ∀ {d : Draft} {done : List Clause}, d.Sound holes →
      (∀ c ∈ done, c.WellFormed holes) → ∀ c ∈ d.clause?.toList ++ done, c.WellFormed holes := by
    intro d done hd hdone c hc
    rcases List.mem_append.mp hc with hc | hc
    · exact hd.clause (Option.mem_toList.mp hc)
    · exact hdone c hc
  induction text generalizing d done with
  | nil =>
    intro c hc
    exact completed hd hdone c (List.mem_reverse.mp hc)
  | cons x text ih =>
    have rest : ∀ c ∈ text, Text.lowerChar c = [c] := fun c hc => own c (List.mem_cons_of_mem x hc)
    rw [readFrom]
    split
    · exact ih (Draft.sound_empty holes) (completed hd hdone) rest
    · exact ih (hd.feed (own x List.mem_cons_self)) hdone rest

theorem wellFormed_read (holes : Bool) (line : List Char) :
    ∀ c ∈ read holes line, c.WellFormed holes :=
  wellFormed_readFrom (Draft.sound_empty holes) (by simp) fun _ => Text.own_of_mem_lowercase

end Query

end TagQuery
