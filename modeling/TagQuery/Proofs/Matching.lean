import TagQuery.Phrase.Words

/-! A value matches a pattern if it splits into consecutive pieces, one for each token, such that
every token takes its piece. The test gives up a search as soon as no later start can succeed, so it
has to be shown to miss nothing. Main statements: the test decides whether the value splits; and a
pattern that is written from places is matched by the values that split along the places. -/
namespace TagQuery

/-- The text consists of consecutive pieces, one for each item, and every item takes its piece. -/
inductive Splits {α : Type} (takes : α → List Char → Prop) : List α → List Char → Prop
  | nil : Splits takes [] []
  | cons {x : α} {xs : List α} {piece rest : List Char} :
      takes x piece → Splits takes xs rest → Splits takes (x :: xs) (piece ++ rest)

section Splits

variable {α : Type} {takes : α → List Char → Prop} {x : α} {xs ys : List α} {text : List Char}

@[simp] theorem splits_nil : Splits takes [] text ↔ text = [] := by
  constructor
  · rintro ⟨⟩
    rfl
  · rintro rfl
    exact .nil

theorem splits_cons : Splits takes (x :: xs) text ↔
    ∃ piece rest, text = piece ++ rest ∧ takes x piece ∧ Splits takes xs rest := by
  constructor
  · rintro ⟨⟩
    next piece rest taken others => exact ⟨piece, rest, rfl, taken, others⟩
  · rintro ⟨piece, rest, rfl, taken, others⟩
    exact .cons taken others

theorem splits_append : Splits takes (xs ++ ys) text ↔
    ∃ front back, text = front ++ back ∧ Splits takes xs front ∧ Splits takes ys back := by
  induction xs generalizing text with
  | nil =>
    constructor
    · intro whole
      exact ⟨[], text, rfl, .nil, whole⟩
    · rintro ⟨front, back, rfl, left, right⟩
      rw [splits_nil.mp left]
      exact right
  | cons x xs ih =>
    rw [List.cons_append, splits_cons]
    constructor
    · rintro ⟨piece, rest, rfl, taken, others⟩
      obtain ⟨front, back, rfl, left, right⟩ := ih.mp others
      exact ⟨piece ++ front, back, by rw [List.append_assoc], .cons taken left, right⟩
    · rintro ⟨front, back, rfl, left, right⟩
      obtain ⟨piece, rest, rfl, taken, others⟩ := splits_cons.mp left
      exact ⟨piece, rest ++ back, by rw [List.append_assoc], taken,
        ih.mpr ⟨rest, back, rfl, others, right⟩⟩

end Splits

namespace Like

/-- What a token takes: a character up to case, any character, or any run. -/
def Token.Takes : Token → List Char → Prop
  | .char a, piece => ∃ c, piece = [c] ∧ key a = key c
  | .one, piece => ∃ c, piece = [c]
  | .many, _ => True
  | .never, _ => False

/-- An outcome that ends the search means what it says: no suffix matches either. -/
def Conclusive (rest : List Char → Outcome) : Prop :=
  ∀ value, rest value = .exhausted → ∀ later, later <:+ value → rest later ≠ .matched

theorem scan_eq_matched_iff {rest : List Char → Outcome} (h : Conclusive rest) {value : List Char} :
    scan rest value = .matched ↔ ∃ later, later <:+ value ∧ rest later = .matched := by
  induction value with
  | nil =>
    rw [scan]
    constructor
    · intro found
      refine ⟨[], List.suffix_rfl, ?_⟩
      split at found
      · assumption
      · cases found
    · rintro ⟨later, short, found⟩
      rw [List.suffix_nil.mp short] at found
      rw [found]
  | cons c value ih =>
    rw [scan]
    split
    · next failed =>
      rw [ih]
      constructor
      · rintro ⟨later, short, found⟩
        exact ⟨later, short.trans (List.suffix_cons c value), found⟩
      · rintro ⟨later, short, found⟩
        rcases List.suffix_cons_iff.mp short with rfl | short
        · rw [failed] at found
          cases found
        · exact ⟨later, short, found⟩
    · next going =>
      constructor
      · intro found
        exact ⟨c :: value, List.suffix_rfl, found⟩
      · rintro ⟨later, short, found⟩
        cases outcome : rest (c :: value) with
        | matched => rfl
        | failed => exact absurd outcome going
        | exhausted => exact absurd found (h _ outcome later short)

theorem conclusive_scan {rest : List Char → Outcome} (h : Conclusive rest) :
    Conclusive (scan rest) := by
  intro value exhausted later short found
  obtain ⟨last, shorter, found⟩ := (scan_eq_matched_iff h).mp found
  have matched := (scan_eq_matched_iff h).mpr ⟨last, shorter.trans short, found⟩
  rw [exhausted] at matched
  cases matched

/-- One character is taken if it fits. -/
def takeOne (fits : Char → Bool) (rest : List Char → Outcome) : List Char → Outcome
  | c :: value => if fits c then rest value else .failed
  | [] => .failed

theorem run_one (pattern : List Token) :
    run (.one :: pattern) = takeOne (fun _ => true) (run pattern) := by
  funext value
  cases value <;> rfl

theorem run_char (a : Char) (pattern : List Token) :
    run (.char a :: pattern) = takeOne (key a == key ·) (run pattern) := by
  funext value
  cases value <;> rfl

theorem takeOne_eq_matched_iff {fits : Char → Bool} {rest : List Char → Outcome}
    {value : List Char} : takeOne fits rest value = .matched ↔
      ∃ c others, value = c :: others ∧ fits c = true ∧ rest others = .matched := by
  cases value with
  | nil => simp [takeOne]
  | cons c value =>
    rw [takeOne]
    constructor
    · intro found
      split at found
      · next fit => exact ⟨c, value, rfl, fit, found⟩
      · cases found
    · rintro ⟨c', others, same, fit, found⟩
      obtain ⟨rfl, rfl⟩ := List.cons.inj same
      rw [if_pos fit, found]

theorem conclusive_takeOne {fits : Char → Bool} {rest : List Char → Outcome}
    (h : Conclusive rest) : Conclusive (takeOne fits rest) := by
  intro value exhausted later short found
  obtain ⟨c, others, rfl, -, found⟩ := takeOne_eq_matched_iff.mp found
  cases value with
  | nil => cases exhausted
  | cons c' value =>
    rw [takeOne] at exhausted
    split at exhausted
    · have behind : others <:+ value := by
        rcases List.suffix_cons_iff.mp short with same | short
        · obtain ⟨-, rfl⟩ := List.cons.inj same
          exact List.suffix_rfl
        · exact (List.suffix_cons c others).trans short
      exact h value exhausted others behind found
    · cases exhausted

theorem conclusive_run (pattern : List Token) : Conclusive (run pattern) := by
  induction pattern with
  | nil =>
    intro value exhausted
    cases value <;> cases exhausted
  | cons t pattern ih =>
    cases t with
    | many => exact conclusive_scan ih
    | one =>
      rw [run_one]
      exact conclusive_takeOne ih
    | char a =>
      rw [run_char]
      exact conclusive_takeOne ih
    | never =>
      intro value exhausted
      cases value <;> cases exhausted

theorem run_eq_matched_iff {pattern : List Token} {value : List Char} :
    run pattern value = .matched ↔ Splits Token.Takes pattern value := by
  induction pattern generalizing value with
  | nil => cases value <;> simp [run]
  | cons t pattern ih =>
    rw [splits_cons]
    cases t with
    | many =>
      rw [run, scan_eq_matched_iff (conclusive_run pattern)]
      simp only [ih]
      constructor
      · rintro ⟨later, ⟨piece, rfl⟩, others⟩
        exact ⟨piece, later, rfl, trivial, others⟩
      · rintro ⟨piece, later, rfl, -, others⟩
        exact ⟨later, List.suffix_append piece later, others⟩
    | one =>
      rw [run_one, takeOne_eq_matched_iff]
      simp only [ih]
      constructor
      · rintro ⟨c, others, rfl, -, split⟩
        exact ⟨[c], others, rfl, ⟨c, rfl⟩, split⟩
      · rintro ⟨_, others, rfl, ⟨c, rfl⟩, split⟩
        exact ⟨c, others, rfl, trivial, split⟩
    | char a =>
      rw [run_char, takeOne_eq_matched_iff]
      simp only [ih, beq_iff_eq]
      constructor
      · rintro ⟨c, others, rfl, fit, split⟩
        exact ⟨[c], others, rfl, ⟨c, rfl, fit⟩, split⟩
      · rintro ⟨_, others, rfl, ⟨c, rfl, fit⟩, split⟩
        exact ⟨c, others, rfl, fit, split⟩
    | never =>
      constructor
      · intro found
        cases value <;> cases found
      · rintro ⟨piece, rest, -, taken, -⟩
        exact taken.elim

theorem splits_many_many {pattern : List Token} {value : List Char} :
    Splits Token.Takes (.many :: .many :: pattern) value ↔
      Splits Token.Takes (.many :: pattern) value := by
  constructor
  · intro split
    obtain ⟨first, rest, rfl, -, split⟩ := splits_cons.mp split
    obtain ⟨second, rest, rfl, -, split⟩ := splits_cons.mp split
    exact splits_cons.mpr ⟨first ++ second, rest, by rw [List.append_assoc], trivial, split⟩
  · intro split
    exact splits_cons.mpr ⟨[], value, rfl, trivial, split⟩

/-- Joining adjacent runs changes nothing of what is matched. -/
theorem splits_pushToken (read : List Token) (t : Token) (pattern : List Token)
    (value : List Char) :
    Splits Token.Takes ((pushToken read t).reverse ++ pattern) value ↔
      Splits Token.Takes (read.reverse ++ t :: pattern) value := by
  fun_cases pushToken read t with
  | case1 read =>
    simp only [List.reverse_cons, List.append_assoc, List.singleton_append]
    rw [splits_append, splits_append]
    simp only [splits_many_many]
  | case2 => simp

end Like

namespace Phrase

def tokenOf : Place → Like.Token
  | .char c => .char c
  | .one => .one
  | .many => .many

theorem pushToken_char (read : List Like.Token) (c : Char) :
    Like.pushToken read (.char c) = .char c :: read := by
  match read with
  | [] | .char _ :: _ | .one :: _ | .many :: _ | .never :: _ => rfl

/-- A place is written as one token, whatever follows it. -/
theorem tokensFrom_likePlace (read : List Like.Token) (x : Place) (rest : List Char) :
    Like.tokensFrom read (likePlace x ++ rest) =
      Like.tokensFrom (Like.pushToken read (tokenOf x)) rest := by
  cases x with
  | one => simp [likePlace, tokenOf, Like.tokensFrom]
  | many => simp [likePlace, tokenOf, Like.tokensFrom]
  | char c =>
    rw [tokenOf, pushToken_char, likePlace, Like.escapeChar]
    split
    · rfl
    · next plain =>
      simp only [Bool.or_eq_true, beq_iff_eq, not_or] at plain
      obtain ⟨⟨notEscape, notOne⟩, notMany⟩ := plain
      have step := Like.tokensFrom.eq_3 read c rest fun _ _ escape _ => notEscape escape
      rw [List.singleton_append, step]
      simp [notEscape, notOne, notMany, pushToken_char]

theorem splits_tokens (places : List Place) (value : List Char) :
    Splits Like.Token.Takes (Like.tokens (places.flatMap likePlace)) value ↔
      Splits Like.Token.Takes (places.map tokenOf) value := by
  have general : ∀ read,
      Splits Like.Token.Takes (Like.tokensFrom read (places.flatMap likePlace)) value ↔
        Splits Like.Token.Takes (read.reverse ++ places.map tokenOf) value := by
    induction places with
    | nil =>
      intro read
      simp [Like.tokensFrom]
    | cons x places ih =>
      intro read
      rw [List.flatMap_cons, tokensFrom_likePlace, ih, Like.splits_pushToken, List.map_cons]
  exact general []

/-- The places before the first U+0000: those behind it are lost when a pattern is read. -/
def visible (places : List Place) : List Place :=
  places.takeWhile (· != .char (Char.ofNat 0))

theorem visible_cons (x : Place) (places : List Place) :
    visible (x :: places) = if x = .char (Char.ofNat 0) then [] else x :: visible places := by
  unfold visible
  rw [List.takeWhile_cons]
  by_cases nul : x = .char (Char.ofNat 0) <;> simp [nul]

theorem visible_append {before : List Place} (h : ∀ x ∈ before, x ≠ .char (Char.ofNat 0))
    (places : List Place) : visible (before ++ places) = before ++ visible places :=
  List.takeWhile_append_of_pos fun x hx => bne_iff_ne.mpr (h x hx)

theorem visible_prefix_append (places behind : List Place) :
    visible places <+: visible (places ++ behind) := by
  induction places with
  | nil => exact List.nil_prefix
  | cons x places ih =>
    rw [List.cons_append, visible_cons, visible_cons]
    split
    · exact List.nil_prefix
    · exact List.cons_prefix_cons.mpr ⟨rfl, ih⟩

theorem ne_nul_of_mem_likePlace {x : Place} (h : x ≠ .char (Char.ofNat 0)) {c : Char}
    (hc : c ∈ likePlace x) : c ≠ Char.ofNat 0 := by
  rintro rfl
  cases x with
  | one => exact absurd hc (by decide)
  | many => exact absurd hc (by decide)
  | char c =>
    apply h
    rw [likePlace, Like.escapeChar] at hc
    split at hc
    · rcases List.mem_cons.mp hc with escape | same
      · exact absurd escape (by decide)
      · rw [List.mem_singleton.mp same]
    · rw [List.mem_singleton.mp hc]

theorem upToNul_likePlaces (places : List Place) :
    Like.upToNul (places.flatMap likePlace) = (visible places).flatMap likePlace := by
  unfold Like.upToNul
  induction places with
  | nil => rfl
  | cons x places ih =>
    by_cases nul : x = .char (Char.ofNat 0)
    · rw [nul]
      rfl
    · have kept : ∀ c ∈ likePlace x, (c != Char.ofNat 0) = true :=
        fun c hc => bne_iff_ne.mpr (ne_nul_of_mem_likePlace nul hc)
      rw [List.flatMap_cons, List.takeWhile_append_of_pos kept, ih, visible_cons, if_neg nul,
        List.flatMap_cons]

/-- A pattern that is written from places is matched by the values that split along them, both up to
the first U+0000. -/
theorem holds_likePlaces {places : List Place} {value : List Char} :
    Like.holds (places.flatMap likePlace) value = true ↔
      Splits Like.Token.Takes ((visible places).map tokenOf) (Like.upToNul value) := by
  rw [Like.holds, beq_iff_eq, Like.run_eq_matched_iff, upToNul_likePlaces, splits_tokens]

def around (places : List Place) : List Place :=
  .many :: (places ++ [.many])

theorem visible_sublist_around (places : List Place) :
    (visible places).Sublist (visible (around places)) := by
  rw [around, visible_cons, if_neg (by decide)]
  exact (visible_prefix_append places [.many]).sublist.cons .many

theorem exactPattern_eq (p : Phrase) : p.exactPattern = p.places.flatMap likePlace := by
  rw [exactPattern, places, List.flatMap_assoc]
  congr 1
  funext piece
  cases piece with
  | lit chars =>
    rw [placesOf, List.flatMap_map]
    rfl
  | one => rfl
  | many => rfl

theorem wordPattern_eq (word : List Place) : wordPattern word = (around word).flatMap likePlace := by
  rw [around, List.flatMap_cons, List.flatMap_append]
  rfl

theorem containedPattern_eq (p : Phrase) :
    p.containedPattern = (around p.places).flatMap likePlace := by
  rw [← wordPattern_eq, containedPattern, exactPattern_eq]
  rfl

end Phrase

namespace Like

/-- Each character of the text is taken by the token that was made of it. -/
theorem splits_map {f : Char → Token} {text : List Char} (h : ∀ c ∈ text, (f c).Takes [c]) :
    Splits Token.Takes (text.map f) text := by
  induction text with
  | nil => exact .nil
  | cons c text ih =>
    have first := h c List.mem_cons_self
    have rest := ih fun x hx => h x (List.mem_cons_of_mem c hx)
    exact .cons first rest

theorem escape_eq (text : List Char) :
    escape text = (text.map Phrase.Place.char).flatMap Phrase.likePlace := by
  rw [List.flatMap_map]
  rfl

theorem visible_map_char (text : List Char) :
    Phrase.visible (text.map .char) = (upToNul text).map .char := by
  unfold Phrase.visible upToNul
  rw [List.takeWhile_map]
  congr 2
  funext c
  rw [Bool.eq_iff_iff]
  simp

/-- An escaped text is matched by what splits into its characters. -/
theorem holds_escape {text value : List Char} :
    holds (escape text) value = true ↔
      Splits Token.Takes ((upToNul text).map .char) (upToNul value) := by
  rw [escape_eq, Phrase.holds_likePlaces, visible_map_char, List.map_map]
  rfl

theorem splits_map_char {f : Char → Char} {text : List Char} :
    Splits Token.Takes ((text.map f).map .char) text ↔ ∀ c ∈ text, key (f c) = key c := by
  induction text with
  | nil => simp
  | cons c text ih =>
    rw [List.map_cons, List.map_cons, splits_cons, List.forall_mem_cons, ← ih]
    constructor
    · rintro ⟨_, rest, split, ⟨x, rfl, same⟩, others⟩
      obtain ⟨rfl, rfl⟩ := List.cons.inj split
      exact ⟨same, others⟩
    · rintro ⟨same, others⟩
      exact ⟨[c], text, rfl, ⟨c, rfl, same⟩, others⟩

end Like

end TagQuery
