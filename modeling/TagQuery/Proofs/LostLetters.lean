import TagQuery.Proofs.LetterCase

/-! Values are compared as they are stored, up to the case of ASCII letters. So a letter beyond
ASCII that is not its own lowercase is no longer itself once the text is lowercased. Main statement:
a text with such a letter has less of some other letter than its lowercase has. -/
namespace TagQuery

namespace Text

/-- A character that is compared as its lowercase is. -/
def isSteady (c : Char) : Bool :=
  c.toNat < 0x80 || lowerChar c == [c]

theorem lowerAt_of_isSteady {c : Char} (h : isSteady c = true) (before after : List Char) :
    lowerAt before c after = [c.toLower] := by
  by_cases ascii : c.toNat < 0x80
  · have noSigma : (c == 'Σ') = false := by
      apply beq_eq_false_iff_ne.mpr
      rintro rfl
      exact absurd ascii (by decide)
    rw [lowerAt, noSigma, if_neg Bool.false_ne_true, lowerChar, if_pos ascii]
  · have own : lowerChar c = [c] := by simpa [isSteady, ascii] using h
    rw [lowerAt_of_own own, toLower_of_not_ascii ascii]

theorem lowered_of_isSteady {text : List Char} (h : ∀ c ∈ text, isSteady c = true)
    (before : List Char) : lowered before text = text.map Char.toLower := by
  induction text generalizing before with
  | nil => rfl
  | cons c after ih =>
    have rest := ih (fun x hx => h x (List.mem_cons_of_mem c hx)) (c :: before)
    rw [lowered, lowerAt_of_isSteady (h c List.mem_cons_self), rest]
    rfl

theorem key_of_toNat_lt {c : Char} (h : c.toNat < 0xFFFE) : Like.key c = c.toLower := by
  apply if_neg
  simp only [Bool.or_eq_true, beq_iff_eq]
  omega

theorem key_of_ascii {c : Char} (h : c.toNat < 0x80) : (Like.key c).toNat < 0x80 := by
  rw [key_of_toNat_lt (by omega)]
  rcases toLower_cases c with same | ⟨-, upper, moved⟩
  · rw [same]
    exact h
  · omega

/-- Beyond ASCII a character is compared as it is, the two behind U+FFFD apart. -/
theorem key_of_not_ascii {c : Char} (h : ¬ c.toNat < 0x80) :
    Like.key c = c ∨ Like.key c = Char.ofNat 0xFFFD ∧ isSteady c = true := by
  unfold Like.key
  split
  · next last =>
    refine .inr ⟨rfl, ?_⟩
    simp only [Bool.or_eq_true, beq_iff_eq] at last
    rcases last with last | last
    · rw [← Char.ofNat_toNat c, last]
      decide
    · rw [← Char.ofNat_toNat c, last]
      decide
  · exact .inl (toLower_of_not_ascii h)

/-- What is compared as a lowercase character is steady. -/
theorem isSteady_of_key_eq {c x : Char} (own : lowerChar x = [x]) (same : Like.key c = Like.key x) :
    isSteady c = true := by
  by_cases ascii : c.toNat < 0x80
  · simp [isSteady, ascii]
  · rcases key_of_not_ascii ascii with itself | ⟨-, steady⟩
    · rw [itself] at same
      by_cases ascii' : x.toNat < 0x80
      · have inAscii := key_of_ascii ascii'
        rw [← same] at inAscii
        exact absurd inAscii ascii
      · rcases key_of_not_ascii ascii' with itself' | ⟨replaced, -⟩
        · rw [same, itself']
          simp [isSteady, own]
        · rw [same, replaced]
          decide
    · exact steady

/-- A mark is compared with nothing but itself. -/
theorem eq_of_key_eq {m x : Char} (hm : isMark m = true) (h : Like.key x = Like.key m) : x = m := by
  simp only [isMark, inIntervals, markIntervals, List.any_cons, List.any_nil, Bool.or_eq_true,
    Bool.and_eq_true, decide_eq_true_eq, Bool.false_eq_true, or_false] at hm
  have itself : Like.key m = m := by
    rw [key_of_toNat_lt (by omega)]
    rcases toLower_cases m with same | ⟨lower, upper, -⟩
    · exact same
    · omega
  rw [itself, Like.key] at h
  split at h
  · have last : m.toNat = 0xFFFD := by
      rw [← h]
      decide
    omega
  · rcases toLower_cases x with same | ⟨lower, upper, moved⟩
    · rw [← same, h]
    · rw [h] at moved
      omega

/-- How often a text has what is compared as `x` is. -/
def occurrences (x : Char) (text : List Char) : Nat :=
  text.countP (Like.key · == Like.key x)

theorem occurrences_append (x : Char) (a b : List Char) :
    occurrences x (a ++ b) = occurrences x a + occurrences x b :=
  List.countP_append

theorem occurrences_cons (x c : Char) (text : List Char) :
    occurrences x (c :: text) = occurrences x [c] + occurrences x text :=
  occurrences_append x [c] text

theorem occurrences_singleton_of_ne {x c : Char} (h : Like.key c ≠ Like.key x) :
    occurrences x [c] = 0 := by
  simp [occurrences, h]

/-- Lowercasing makes no letter rarer that is its own lowercase. -/
theorem occurrences_lowerAt {x : Char} (own : lowerChar x = [x]) (before : List Char) (c : Char)
    (after : List Char) : occurrences x [c] ≤ occurrences x (lowerAt before c after) := by
  by_cases same : Like.key c = Like.key x
  · rw [lowerAt_of_isSteady (isSteady_of_key_eq own same)]
    simp [occurrences, Like.key_toLower]
  · rw [occurrences_singleton_of_ne same]
    exact Nat.zero_le _

theorem occurrences_lowered {x : Char} (own : lowerChar x = [x]) (before text : List Char) :
    occurrences x text ≤ occurrences x (lowered before text) := by
  induction text generalizing before with
  | nil => exact Nat.le_refl _
  | cons c after ih =>
    have first := occurrences_lowerAt own before c after
    have rest := ih (c :: before)
    rw [lowered, occurrences_append, occurrences_cons]
    omega

/-- A letter that is not steady gives way to others, none of them a mark or compared as it is. -/
theorem mem_lowerAt_of_not_isSteady {before after : List Char} {c x : Char}
    (loose : isSteady c = false) (h : x ∈ lowerAt before c after) :
    lowerChar x = [x] ∧ isMark x = false ∧ Like.key c ≠ Like.key x := by
  obtain ⟨own, mark⟩ := mem_lowerAt h
  have other : Like.key c ≠ Like.key x := by
    intro same
    rw [isSteady_of_key_eq own same] at loose
    cases loose
  refine ⟨own, ?_, other⟩
  apply Bool.eq_false_iff.mpr
  intro isMark
  exact other (by rw [mark isMark])

/-- A text with a letter that is not steady has less of some other letter than its lowercase. -/
theorem exists_occurrences_lt {text : List Char} {c : Char} (hc : c ∈ text)
    (loose : isSteady c = false) (before : List Char) :
    ∃ x, lowerChar x = [x] ∧ isMark x = false ∧
      occurrences x text < occurrences x (lowered before text) := by
  induction text generalizing before with
  | nil => cases hc
  | cons d after ih =>
    rcases List.mem_cons.mp hc with rfl | hc
    · obtain ⟨x, hx⟩ := List.exists_mem_of_ne_nil _ (lowerAt_ne_nil before c after)
      obtain ⟨own, noMark, other⟩ := mem_lowerAt_of_not_isSteady loose hx
      have gained : 0 < occurrences x (lowerAt before c after) :=
        List.countP_pos_iff.mpr ⟨x, hx, by simp⟩
      have rest := occurrences_lowered own (c :: before) after
      have lost := occurrences_singleton_of_ne other
      refine ⟨x, own, noMark, ?_⟩
      rw [lowered, occurrences_append, occurrences_cons]
      omega
    · obtain ⟨x, own, noMark, more⟩ := ih hc (d :: before)
      have first := occurrences_lowerAt own before d after
      refine ⟨x, own, noMark, ?_⟩
      rw [lowered, occurrences_append, occurrences_cons]
      omega

end Text

namespace Like

theorem upToNul_append {text : List Char} (h : Char.ofNat 0 ∉ text) (rest : List Char) :
    upToNul (text ++ rest) = text ++ upToNul rest := by
  apply List.takeWhile_append_of_pos
  intro c hc
  apply bne_iff_ne.mpr
  rintro rfl
  exact h hc

/-- U+0000 divides a text for its lowercase too. -/
theorem upToNul_lowercase (text : List Char) :
    upToNul (Text.lowercase text) = Text.lowercase (upToNul text) := by
  have mark : Text.isMark (Char.ofNat 0) = true := by decide
  have barrier : Text.isBarrier (Char.ofNat 0) = true := by decide +kernel
  by_cases nul : Char.ofNat 0 ∈ text
  · obtain ⟨front, back, rfl, clear⟩ := List.eq_append_cons_of_mem nul
    have clear' : Char.ofNat 0 ∉ Text.lowercase front := mt (Text.mem_of_mem_lowercase mark) clear
    have cut : ∀ rest, upToNul (Char.ofNat 0 :: rest) = [] := fun _ => rfl
    rw [Text.lowercase_append_barrier barrier mark, upToNul_append clear', upToNul_append clear,
      cut, cut, List.append_nil, List.append_nil]
  · have clear : Char.ofNat 0 ∉ Text.lowercase text := mt (Text.mem_of_mem_lowercase mark) nul
    have whole := upToNul_append nul []
    have whole' := upToNul_append clear []
    simp only [List.append_nil, upToNul, List.takeWhile_nil] at whole whole'
    rw [upToNul, upToNul, whole, whole']

end Like

end TagQuery
