import TagQuery.Text.Blank
import TagQuery.Text.Lowercase

/-! The lowercase of a text is its own lowercase, and leaves every mark (the ASCII characters that
are no letters, the blanks) where it was. Only a capital sigma looks at its neighbours, and it never
looks past a separator, so that lowercasing distributes over separators. -/
namespace TagQuery.Text

/-- Whether the interval from `lo` to `hi` meets none of the intervals. -/
def clearOf (intervals : List (Nat × Nat)) (lo hi : Nat) : Bool :=
  intervals.all fun i => Nat.blt hi i.1 || Nat.blt i.2 lo

theorem not_inIntervals_of_clearOf {intervals : List (Nat × Nat)} {lo hi : Nat} {c : Char}
    (h : clearOf intervals lo hi = true) (hlo : lo ≤ c.toNat) (hhi : c.toNat ≤ hi) :
    inIntervals intervals c = false := by
  apply Bool.eq_false_iff.mpr
  intro inside
  obtain ⟨i, hi', within⟩ := List.any_eq_true.mp inside
  have apart := List.all_eq_true.mp h i hi'
  simp only [Bool.or_eq_true, Nat.blt_eq] at apart
  simp only [Bool.and_eq_true, decide_eq_true_eq] at within
  omega

/-- Two lists of intervals without a common code point. -/
theorem inIntervals_disjoint {xs ys : List (Nat × Nat)} {c : Char}
    (h : xs.all (fun i => clearOf ys i.1 i.2) = true) (hc : inIntervals xs c = true) :
    inIntervals ys c = false := by
  obtain ⟨i, hi, within⟩ := List.any_eq_true.mp hc
  simp only [Bool.and_eq_true, decide_eq_true_eq] at within
  exact not_inIntervals_of_clearOf (List.all_eq_true.mp h i hi) within.1 within.2

namespace CaseRange

def image (r : CaseRange) (n : Nat) : Nat :=
  (n + r.offset).toNat

theorem covers_iff {r : CaseRange} {n : Nat} :
    r.covers n = true ↔ r.first ≤ n ∧ n ≤ r.last ∧ (n - r.first) % r.step = 0 := by
  simp [covers, and_assoc]

theorem image_bounds {r : CaseRange} {n : Nat} (h : r.covers n = true) :
    r.image r.first ≤ r.image n ∧ r.image n ≤ r.image r.last := by
  obtain ⟨lower, upper, -⟩ := covers_iff.mp h
  unfold image
  omega

/-- No code point of one range moves to one that the other covers: they lie apart, or alternate. -/
def apart (r s : CaseRange) : Bool :=
  Nat.blt (r.image r.last) s.first || (Nat.blt s.last (r.image r.first) ||
    (Nat.beq s.step 2 && Nat.beq ((r.image r.first + s.first) % 2) 1 &&
      (Nat.beq r.first r.last || Nat.beq r.step 2 && Nat.blt 0 (r.image r.first))))

theorem not_covers_image {r s : CaseRange} {n : Nat} (hr : r.covers n = true)
    (h : r.apart s = true) : s.covers (r.image n) = false := by
  apply Bool.eq_false_iff.mpr
  intro hs
  have bounds := image_bounds hr
  obtain ⟨lower, upper, even⟩ := covers_iff.mp hr
  obtain ⟨lower', upper', even'⟩ := covers_iff.mp hs
  simp only [apart, Bool.or_eq_true, Bool.and_eq_true, Nat.blt_eq, Nat.beq_eq] at h
  rcases h with h | h | ⟨⟨step', odd⟩, single | ⟨step, positive⟩⟩
  · omega
  · omega
  · rw [step'] at even'
    have same : n = r.first := by omega
    rw [same] at even' lower'
    omega
  · rw [step'] at even'
    rw [step] at even
    unfold image at *
    omega

/-- Either no range covers the character, or it moves along one that does. -/
theorem lookup_cases (table : List CaseRange) (c : Char) :
    ((∀ r ∈ table, r.covers c.toNat = false) ∧ lookup table c = c) ∨
      ∃ r ∈ table, r.covers c.toNat = true ∧ lookup table c = Char.ofNat (r.image c.toNat) := by
  cases found : table.find? (·.covers c.toNat) with
  | none =>
    refine .inl ⟨fun r hr => ?_, by simp [lookup, found]⟩
    simpa using List.find?_eq_none.mp found r hr
  | some r =>
    refine .inr ⟨r, List.mem_of_find?_eq_some found, ?_, ?_⟩
    · simpa using List.find?_some found
    · simp [lookup, found, shift, image]

theorem lookup_of_not_covers {table : List CaseRange} {c : Char}
    (h : ∀ r ∈ table, r.covers c.toNat = false) : lookup table c = c := by
  rcases lookup_cases table c with ⟨-, same⟩ | ⟨r, hr, covered, -⟩
  · exact same
  · rw [h r hr] at covered
    cases covered

end CaseRange

/-- Code points that no case mapping starts from or leads to. -/
def markIntervals : List (Nat × Nat) :=
  [(0x00, 0x40), (0x5B, 0x60), (0x7B, 0xA0), (0x1680, 0x1680), (0x2000, 0x205F), (0x3000, 0x3000)]

def isMark (c : Char) : Bool :=
  inIntervals markIntervals c

/-- The code points that lowercasing never leads to, the marks apart. -/
def capitalIntervals : List (Nat × Nat) :=
  [(0x41, 0x5A), (0x130, 0x130)]

/-- What is asked of a range of the table: it touches no mark, and leads to characters that are
neither capital nor covered by a range. -/
def settledRange (r : CaseRange) : Bool :=
  clearOf markIntervals r.first r.last &&
    clearOf (capitalIntervals ++ markIntervals) (r.image r.first) (r.image r.last) &&
    (Nat.blt (r.image r.last) 0xD800 ||
      Nat.blt 0xDFFF (r.image r.first) && Nat.blt (r.image r.last) 0x110000) &&
    lowercaseTable.all r.apart

theorem settledRange_of_mem : ∀ r ∈ lowercaseTable, settledRange r = true := by
  apply List.all_eq_true.mp
  decide +kernel

private theorem ascii_lower_checked : (List.range 0x80).all (fun n =>
    let c := Char.ofNat n
    (inIntervals capitalIntervals c || c.toLower == c) && (!isMark c.toLower || c.toLower == c) &&
      lowerChar c.toLower == [c.toLower]) = true := by
  decide

/-- The lowercase of an ASCII character is its own, and only capitals differ from theirs. -/
private theorem ascii_lower {c : Char} (h : c.toNat < 0x80) :
    (inIntervals capitalIntervals c = false → c.toLower = c) ∧
      (isMark c.toLower = true → c.toLower = c) ∧ lowerChar c.toLower = [c.toLower] := by
  have checked := List.all_eq_true.mp ascii_lower_checked c.toNat (List.mem_range.mpr h)
  simp only [Char.ofNat_toNat, Bool.and_eq_true, Bool.or_eq_true, Bool.not_eq_true',
    beq_iff_eq] at checked
  obtain ⟨⟨fromSmall, toMark⟩, own⟩ := checked
  refine ⟨fun small => fromSmall.resolve_left ?_, fun mark => toMark.resolve_left ?_, own⟩
  · simp [small]
  · simp [mark]

private theorem toNat_ofNat {n : Nat} (h : n < 0xD800 ∨ 0xDFFF < n ∧ n < 0x110000) :
    (Char.ofNat n).toNat = n := by
  rw [Char.ofNat, dif_pos h]
  rfl

theorem lowerChar_of_not_covers {c : Char} (noCapital : inIntervals capitalIntervals c = false)
    (uncovered : ∀ r ∈ lowercaseTable, r.covers c.toNat = false) : lowerChar c = [c] := by
  unfold lowerChar
  split
  · next ascii => rw [(ascii_lower ascii).1 noCapital]
  · split
    · next is130 =>
      rw [beq_iff_eq] at is130
      simp [inIntervals, capitalIntervals, is130] at noCapital
    · rw [CaseRange.lookup_of_not_covers uncovered]

/-- Where a covered character moves to: not to a mark, and to its own lowercase. -/
private theorem range_lower {r : CaseRange} {n : Nat} (hr : r ∈ lowercaseTable)
    (h : r.covers n = true) :
    isMark (Char.ofNat (r.image n)) = false ∧
      lowerChar (Char.ofNat (r.image n)) = [Char.ofNat (r.image n)] := by
  have settled := settledRange_of_mem r hr
  simp only [settledRange, Bool.and_eq_true] at settled
  obtain ⟨⟨⟨-, clear⟩, valid⟩, apart⟩ := settled
  have bounds := CaseRange.image_bounds h
  have toNat : (Char.ofNat (r.image n)).toNat = r.image n := by
    apply toNat_ofNat
    simp only [Bool.or_eq_true, Bool.and_eq_true, Nat.blt_eq] at valid
    omega
  have outside : inIntervals (capitalIntervals ++ markIntervals) (Char.ofNat (r.image n)) = false :=
    not_inIntervals_of_clearOf clear (by omega) (by omega)
  obtain ⟨noCapital, noMark⟩ : inIntervals capitalIntervals (Char.ofNat (r.image n)) = false ∧
      isMark (Char.ofNat (r.image n)) = false := by
    simpa [inIntervals, isMark, List.any_append] using outside
  refine ⟨noMark, lowerChar_of_not_covers noCapital fun s hs => ?_⟩
  rw [toNat]
  exact CaseRange.not_covers_image h (List.all_eq_true.mp apart s hs)

/-- Every character of a lowercase is its own lowercase, and a mark only comes from itself. -/
theorem mem_lowerChar {c x : Char} (h : x ∈ lowerChar c) :
    lowerChar x = [x] ∧ (isMark x = true → x = c) := by
  unfold lowerChar at h
  split at h
  · next ascii =>
    obtain ⟨-, toMark, own⟩ := ascii_lower ascii
    rw [List.mem_singleton.mp h]
    exact ⟨own, toMark⟩
  · split at h
    · rcases List.mem_cons.mp h with rfl | h
      · exact ⟨by decide, fun mark => absurd mark (by decide)⟩
      · rw [List.mem_singleton.mp h]
        exact ⟨by decide, fun mark => absurd mark (by decide)⟩
    · next notAscii not130 =>
      rw [List.mem_singleton.mp h]
      rcases CaseRange.lookup_cases lowercaseTable c with ⟨uncovered, same⟩ | ⟨r, hr, covered, moved⟩
      · rw [same]
        refine ⟨?_, fun _ => rfl⟩
        rw [lowerChar, if_neg notAscii, if_neg not130, same]
      · rw [moved]
        obtain ⟨noMark, own⟩ := range_lower hr covered
        refine ⟨own, fun mark => ?_⟩
        rw [noMark] at mark
        cases mark

theorem lowerChar_of_isMark {c : Char} (h : isMark c = true) : lowerChar c = [c] := by
  have noCapital : inIntervals capitalIntervals c = false := inIntervals_disjoint (by decide) h
  apply lowerChar_of_not_covers noCapital
  intro r hr
  apply Bool.eq_false_iff.mpr
  intro covered
  obtain ⟨lower, upper, -⟩ := CaseRange.covers_iff.mp covered
  have settled := settledRange_of_mem r hr
  simp only [settledRange, Bool.and_eq_true] at settled
  have outside := not_inIntervals_of_clearOf settled.1.1.1 lower upper
  rw [isMark, outside] at h
  cases h

theorem mem_lowerAt {before after : List Char} {c x : Char} (h : x ∈ lowerAt before c after) :
    lowerChar x = [x] ∧ (isMark x = true → x = c) := by
  unfold lowerAt at h
  split at h
  · rw [List.mem_singleton.mp h]
    split
    · exact ⟨by decide, fun mark => absurd mark (by decide)⟩
    · exact ⟨by decide, fun mark => absurd mark (by decide)⟩
  · exact mem_lowerChar h

theorem lowerAt_of_own {c : Char} (h : lowerChar c = [c]) (before after : List Char) :
    lowerAt before c after = [c] := by
  unfold lowerAt
  split
  · next sigma =>
    rw [beq_iff_eq.mp sigma] at h
    exact absurd h (by decide)
  · exact h

theorem lowerAt_ne_nil (before : List Char) (c : Char) (after : List Char) :
    lowerAt before c after ≠ [] := by
  unfold lowerAt lowerChar
  repeat' split
  all_goals exact List.cons_ne_nil _ _

/-- The lowercase of a text after `before`, nearest character first. -/
def lowered (before : List Char) : List Char → List Char
  | [] => []
  | c :: after => lowerAt before c after ++ lowered (c :: before) after

private theorem lowercaseFrom_eq (before written text : List Char) :
    lowercaseFrom before written text = written.reverse ++ lowered before text := by
  induction text generalizing before written with
  | nil => simp [lowercaseFrom, lowered]
  | cons c after ih => simp [lowercaseFrom, lowered, ih]

theorem lowercase_eq_lowered (text : List Char) : lowercase text = lowered [] text :=
  lowercaseFrom_eq [] [] text

theorem lowercase_ne_nil {text : List Char} (h : text ≠ []) : lowercase text ≠ [] := by
  obtain ⟨c, after, rfl⟩ := List.exists_cons_of_ne_nil h
  rw [lowercase_eq_lowered, lowered]
  exact List.append_ne_nil_of_left_ne_nil (lowerAt_ne_nil [] c after) _

private theorem own_of_mem_lowered {before text : List Char} {x : Char}
    (h : x ∈ lowered before text) : lowerChar x = [x] := by
  induction text generalizing before with
  | nil => cases h
  | cons c after ih =>
    rcases List.mem_append.mp h with h | h
    · exact (mem_lowerAt h).1
    · exact ih h

theorem own_of_mem_lowercase {text : List Char} {x : Char} (h : x ∈ lowercase text) :
    lowerChar x = [x] := by
  rw [lowercase_eq_lowered] at h
  exact own_of_mem_lowered h

theorem lowercase_of_own {text : List Char} (h : ∀ c ∈ text, lowerChar c = [c]) :
    lowercase text = text := by
  rw [lowercase_eq_lowered]
  generalize ([] : List Char) = before
  induction text generalizing before with
  | nil => rfl
  | cons c after ih =>
    have first := h c List.mem_cons_self
    have rest := ih (fun x hx => h x (List.mem_cons_of_mem c hx)) (c :: before)
    rw [lowered, lowerAt_of_own first, rest]
    rfl

private theorem filter_isMark_lowerAt (before : List Char) (c : Char) (after : List Char) :
    (lowerAt before c after).filter isMark = [c].filter isMark := by
  cases mark : isMark c with
  | true => rw [lowerAt_of_own (lowerChar_of_isMark mark)]
  | false =>
    have none_mark : ∀ x ∈ lowerAt before c after, ¬ isMark x = true := by
      intro x hx hm
      rw [(mem_lowerAt hx).2 hm, mark] at hm
      cases hm
    rw [List.filter_eq_nil_iff.mpr none_mark]
    simp [mark]

/-- The marks of a text are those of its lowercase, in the same order. -/
theorem filter_isMark_lowercase (text : List Char) :
    (lowercase text).filter isMark = text.filter isMark := by
  rw [lowercase_eq_lowered]
  generalize ([] : List Char) = before
  induction text generalizing before with
  | nil => rfl
  | cons c after ih =>
    rw [lowered, List.filter_append, filter_isMark_lowerAt, ih, ← List.filter_append]
    rfl

theorem count_lowercase {m : Char} (h : isMark m = true) (text : List Char) :
    (lowercase text).count m = text.count m := by
  rw [← List.count_filter h, filter_isMark_lowercase, List.count_filter h]

theorem mem_of_mem_lowercase {m : Char} (hm : isMark m = true) {text : List Char}
    (h : m ∈ lowercase text) : m ∈ text := by
  rw [← List.count_pos_iff, count_lowercase hm] at h
  exact List.count_pos_iff.mp h

/-- A mark in the lowercase of a text stands there after the same marks as in the text. -/
theorem lowercase_eq_append_cons {text front back : List Char} {m : Char}
    (h : lowercase text = front ++ m :: back) (hm : isMark m = true) :
    ∃ front' back', text = front' ++ m :: back' ∧ front'.filter isMark = front.filter isMark := by
  have marks := filter_isMark_lowercase text
  rw [h, List.filter_append, List.filter_cons_of_pos hm] at marks
  obtain ⟨l, r, rfl, left, right⟩ := List.filter_eq_append_iff.mp marks.symm
  obtain ⟨l', r', rfl, noMarks, -, -⟩ := List.filter_eq_cons_iff.mp right
  refine ⟨l ++ l', r', by simp, ?_⟩
  rw [List.filter_append, left, List.filter_eq_nil_iff.mpr noMarks, List.append_nil]

/-- A character past which a capital sigma does not look for a cased one. -/
def isBarrier (c : Char) : Bool :=
  !isCaseIgnorable c && !isCased c

theorem leadsCased_append_barrier {s : Char} (h : isBarrier s = true) (near far : List Char) :
    leadsCased (near ++ s :: far) = leadsCased near := by
  simp only [isBarrier, Bool.and_eq_true, Bool.not_eq_true'] at h
  induction near with
  | nil => simp [leadsCased, List.dropWhile, h.1, h.2]
  | cons c near ih =>
    unfold leadsCased at *
    cases ignorable : isCaseIgnorable c with
    | true => simpa [List.dropWhile, ignorable] using ih
    | false => simp [List.dropWhile, ignorable]

private theorem lowered_after_barrier {s : Char} (h : isBarrier s = true)
    (near far text : List Char) : lowered (near ++ s :: far) text = lowered near text := by
  induction text generalizing near with
  | nil => rfl
  | cons c after ih =>
    rw [lowered, lowered, ← List.cons_append, ih (c :: near)]
    simp only [lowerAt, leadsCased_append_barrier h]

private theorem lowered_before_barrier {s : Char} (h : isBarrier s = true) (hs : isMark s = true)
    (before text rest : List Char) :
    lowered before (text ++ s :: rest) = lowered before text ++ s :: lowered [] rest := by
  induction text generalizing before with
  | nil =>
    have fresh := lowered_after_barrier h [] before rest
    rw [List.nil_append] at fresh
    simp only [List.nil_append, lowered, lowerAt_of_own (lowerChar_of_isMark hs), fresh,
      List.singleton_append]
  | cons c after ih =>
    rw [List.cons_append, lowered, lowered, ih, List.append_assoc]
    simp only [lowerAt, leadsCased_append_barrier h]

/-- A mark that is a barrier cuts a text into parts that are lowercased on their own. -/
theorem lowercase_append_barrier {s : Char} (h : isBarrier s = true) (hs : isMark s = true)
    (a b : List Char) : lowercase (a ++ s :: b) = lowercase a ++ s :: lowercase b := by
  rw [lowercase_eq_lowered, lowercase_eq_lowered, lowercase_eq_lowered]
  exact lowered_before_barrier h hs [] a b

private def separatorIntervals : List (Nat × Nat) :=
  [(9, 13), (0x20, 0x20), (0x2C, 0x2C), (0x85, 0x85), (0xA0, 0xA0), (0x1680, 0x1680),
    (0x2000, 0x200A), (0x2028, 0x2029), (0x202F, 0x202F), (0x205F, 0x205F), (0x3000, 0x3000)]

private theorem inIntervals_of_isSeparator {c : Char} (h : isSeparator c = true) :
    inIntervals separatorIntervals c = true := by
  simp only [isSeparator, isBlank, Bool.or_eq_true, Bool.and_eq_true, decide_eq_true_eq,
    beq_iff_eq] at h
  have comma : c = ',' → c.toNat = 0x2C := by
    intro same
    rw [same]
    rfl
  replace h := h.imp_right comma
  simp only [inIntervals, separatorIntervals, List.any_cons, List.any_nil, Bool.or_eq_true,
    Bool.and_eq_true, decide_eq_true_eq]
  omega

theorem isMark_of_isSeparator {c : Char} (h : isSeparator c = true) : isMark c = true := by
  have separator := inIntervals_of_isSeparator h
  simp only [inIntervals, separatorIntervals, List.any_cons, List.any_nil, Bool.or_eq_true,
    Bool.and_eq_true, decide_eq_true_eq, Bool.false_eq_true, or_false] at separator
  simp only [isMark, inIntervals, markIntervals, List.any_cons, List.any_nil, Bool.or_eq_true,
    Bool.and_eq_true, decide_eq_true_eq]
  omega

theorem isBarrier_of_isSeparator {c : Char} (h : isSeparator c = true) : isBarrier c = true := by
  have separator := inIntervals_of_isSeparator h
  have notIgnorable : isCaseIgnorable c = false :=
    inIntervals_disjoint (by decide +kernel) separator
  have notCased : isCased c = false := inIntervals_disjoint (by decide) separator
  simp [isBarrier, notIgnorable, notCased]

theorem lowercase_append_separator {s : Char} (h : isSeparator s = true) (a b : List Char) :
    lowercase (a ++ s :: b) = lowercase a ++ s :: lowercase b :=
  lowercase_append_barrier (isBarrier_of_isSeparator h) (isMark_of_isSeparator h) a b

end TagQuery.Text
