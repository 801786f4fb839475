import Mathlib.Data.List.Chain
import Mathlib.Data.List.Forall2
import TagQuery.Proofs.GlobExpression
import TagQuery.Proofs.LetterCase
import TagQuery.Proofs.Matching

/-! A value matches a title pattern if it splits into consecutive pieces, one for each token, such
that every token takes its piece. The test works from the end of the pattern and keeps a row that
tells of every suffix of the value whether the tokens behind match it; the invariant is that the row
tells the truth. Main statement: the test decides whether the value splits, and so does the regular
expression of the pattern, read by the rules of its few signs. -/
namespace TagQuery.Glob

/-- Two tokens that may stand side by side: no literal dollar before what makes it a wildcard. -/
def Token.Apart (a b : Token) : Prop :=
  ¬ (a = .char '$' ∧ (b = .char '*' ∨ b = .char '?'))

/-- The tokens spell the pattern, and a dollar is literal only where no wildcard is spelled. -/
def Spells (tokens : List Token) (pattern : List Char) : Prop :=
  tokens.flatMap Token.spelled = pattern ∧ tokens.IsChain Token.Apart

theorem tokensFrom_append (read before : List Token) (pattern : List Char) :
    tokensFrom (read ++ before) pattern = before.reverse ++ tokensFrom read pattern := by
  fun_induction tokensFrom read pattern with
  | case1 read => rw [tokensFrom, List.reverse_append]
  | case2 read rest ih => exact ih
  | case3 read rest ih => exact ih
  | case4 read c rest notMany notOne ih =>
    rw [tokensFrom.eq_4 _ _ _ notMany notOne]
    exact ih

theorem tokens_many (rest : List Char) : tokens ('$' :: '*' :: rest) = .many :: tokens rest :=
  tokensFrom_append [] [.many] rest

theorem tokens_one (rest : List Char) : tokens ('$' :: '?' :: rest) = .one :: tokens rest :=
  tokensFrom_append [] [.one] rest

theorem tokens_char {c : Char} {rest : List Char} (notMany : ∀ r, c = '$' → rest = '*' :: r → False)
    (notOne : ∀ r, c = '$' → rest = '?' :: r → False) :
    tokens (c :: rest) = .char c :: tokens rest := by
  rw [tokens, tokensFrom.eq_4 _ _ _ notMany notOne]
  exact tokensFrom_append [] [.char c] rest

/-- What tokens spell starts with a star or a question mark only if the first token is that
character. -/
theorem eq_cons_of_spelled {tokens : List Token} {c : Char} {rest : List Char} (h : c ≠ '$')
    (spelled : tokens.flatMap Token.spelled = c :: rest) : tokens.head? = some (.char c) := by
  cases tokens with
  | nil => cases spelled
  | cons token tokens =>
    rw [List.flatMap_cons] at spelled
    cases token with
    | char d =>
      obtain ⟨rfl, -⟩ := List.cons.inj spelled
      rfl
    | one | many => exact absurd (List.cons.inj spelled).1.symm h

theorem tokens_spelled {ts : List Token} (chain : ts.IsChain Token.Apart) :
    tokens (ts.flatMap Token.spelled) = ts := by
  induction ts with
  | nil => rfl
  | cons token ts ih =>
    obtain ⟨next, chain'⟩ := List.isChain_cons.mp chain
    rw [List.flatMap_cons]
    cases token with
    | one => exact (tokens_one _).trans (congrArg _ (ih chain'))
    | many => exact (tokens_many _).trans (congrArg _ (ih chain'))
    | char c =>
      refine (tokens_char ?_ ?_).trans (congrArg _ (ih chain'))
      · rintro r rfl starts
        exact next _ (eq_cons_of_spelled (by decide) starts) ⟨rfl, .inl rfl⟩
      · rintro r rfl starts
        exact next _ (eq_cons_of_spelled (by decide) starts) ⟨rfl, .inr rfl⟩

theorem chain_tokens (pattern : List Char) : (tokens pattern).IsChain Token.Apart := by
  refine tokensFrom.induct (motive := fun _ pattern => (tokens pattern).IsChain Token.Apart)
    (fun _ => .nil) ?_ ?_ ?_ [] pattern
  · intro _ rest ih
    rw [tokens_many]
    exact ih.cons fun b _ ⟨dollar, _⟩ => nomatch dollar
  · intro _ rest ih
    rw [tokens_one]
    exact ih.cons fun b _ ⟨dollar, _⟩ => nomatch dollar
  · intro _ c rest notMany notOne ih
    rw [tokens_char notMany notOne]
    refine ih.cons fun b hb ⟨dollar, sign⟩ => ?_
    -- the next token is spelled at the start of the rest
    obtain ⟨others, first⟩ := List.head?_eq_some_iff.mp hb
    have spelled := spelled_tokens rest
    rw [first, List.flatMap_cons] at spelled
    rcases sign with rfl | rfl
    · exact notMany _ (Token.char.inj dollar) spelled.symm
    · exact notOne _ (Token.char.inj dollar) spelled.symm

theorem spells_iff {ts : List Token} {pattern : List Char} :
    Spells ts pattern ↔ ts = tokens pattern := by
  constructor
  · rintro ⟨rfl, chain⟩
    exact (tokens_spelled chain).symm
  · rintro rfl
    exact ⟨spelled_tokens pattern, chain_tokens pattern⟩

/-- What a token takes: a character up to case, a character that is no newline, or a run of such. -/
def Token.Takes : Token → List Char → Prop
  | .char a, piece => ∃ c, piece = [c] ∧ Text.fold a = Text.fold c
  | .one, piece => ∃ c, piece = [c] ∧ c ≠ '\n'
  | .many, piece => '\n' ∉ piece

/-- The suffixes of a text from `behind` on, shortest first. What stands before `behind` is given in
reverse. -/
def endings (behind : List Char) : List Char → List (List Char)
  | [] => [behind]
  | c :: front => behind :: endings (c :: behind) front

theorem endings_eq_cons (behind front : List Char) :
    endings behind front = behind :: (endings behind front).tail := by
  cases front <;> rfl

theorem getLast?_endings (behind front : List Char) :
    (endings behind front).getLast? = some (front.reverse ++ behind) := by
  induction front generalizing behind with
  | nil => rfl
  | cons c front ih =>
    rw [endings, endings_eq_cons, List.getLast?_cons_cons, ← endings_eq_cons, ih]
    simp

/-- The row tells of each of the texts whether it has the property. -/
def Tells (P : List Char → Prop) : List (List Char) → List Bool → Prop :=
  List.Forall₂ fun text told => told = true ↔ P text

section Rows

variable {P Q : List Char → Prop} {behind front : List Char} {row : List Bool}

theorem Tells.getLast {texts : List (List Char)} (h : Tells P texts row) {text : List Char}
    (last : texts.getLast? = some text) : row.getLast? = some true ↔ P text := by
  induction h with
  | nil => cases last
  | cons told others ih =>
    cases others with
    | nil =>
      rw [List.getLast?_singleton, Option.some_inj] at last ⊢
      rw [← last]
      exact told
    | cons told' others' =>
      rw [List.getLast?_cons_cons] at last ⊢
      exact ih last

/-- The empty suffix comes first, and no other is empty. -/
theorem tells_empty (behind front : List Char) :
    Tells (· = []) (endings behind front).tail (front.map fun _ => false) := by
  induction front generalizing behind with
  | nil => exact .nil
  | cons c front ih =>
    show Tells (· = []) (endings (c :: behind) front) _
    rw [endings_eq_cons]
    exact .cons (by simp) (ih (c :: behind))

theorem tells_zipWith {fits : Char → Bool} {f : Char → Char}
    (step : ∀ c text, Q (c :: text) ↔ fits (f c) = true ∧ P text)
    (h : Tells P (endings behind front) row) :
    Tells Q (endings behind front).tail
      (List.zipWith (fun c told => fits c && told) (front.map f) row) := by
  induction front generalizing behind row with
  | nil => exact .nil
  | cons c front ih =>
    obtain ⟨told, row, here, others, rfl⟩ := List.forall₂_cons_left_iff.mp h
    have next : (fits (f c) && told) = true ↔ Q (c :: behind) := by
      rw [step, ← here, Bool.and_eq_true]
    show Tells Q (endings (c :: behind) front) _
    rw [endings_eq_cons]
    exact .cons next (ih others)

theorem runRow_append (told : Bool) (row done : List Bool) (value : List Char)
    (rests : List Bool) :
    runRow told (row ++ done) value rests = done.reverse ++ runRow told row value rests := by
  fun_induction runRow told row value rests with
  | case1 told row c value rest rests here ih => exact ih
  | case2 told row value rests ended =>
    rw [runRow.eq_2 _ _ _ _ ended, List.reverse_append]

theorem tells_runRow {f : Char → Char} (newline : ∀ c, f c = '\n' ↔ c = '\n')
    (step : ∀ c text, Q (c :: text) ↔ P (c :: text) ∨ c ≠ '\n' ∧ Q text) {told : Bool}
    {rests : List Bool} (here : told = true ↔ Q behind)
    (h : Tells P (endings behind front).tail rests) :
    Tells Q (endings behind front).tail (runRow told [] (front.map f) rests) := by
  induction front generalizing behind told rests with
  | nil =>
    cases h
    exact .nil
  | cons c front ih =>
    have more : Tells P (endings (c :: behind) front) rests := h
    rw [endings_eq_cons] at more
    obtain ⟨rest, rests, first, others, rfl⟩ := List.forall₂_cons_left_iff.mp more
    have next : (rest || (f c != '\n' && told)) = true ↔ Q (c :: behind) := by
      rw [step, ← here, ← first, Bool.or_eq_true, Bool.and_eq_true, bne_iff_ne, ne_eq, newline]
    show Tells Q (endings (c :: behind) front) _
    rw [endings_eq_cons, List.map_cons, runRow]
    exact runRow_append _ [] [_] _ _ ▸ .cons next (ih next others)

end Rows

private theorem image_checked :
    Text.foldTable.all (fun r => Nat.blt 10 (r.image r.first)) = true := by
  decide

private theorem eq_of_ofNat_eq_newline {n : Nat} (h : Char.ofNat n = '\n') : n = 10 := by
  have code : (Char.ofNat n).toNat = 10 := congrArg Char.toNat h
  by_cases valid : n.isValidChar
  · have same : (Char.ofNat n).toNat = n := congrArg Char.toNat (dif_pos valid)
    rw [← same, code]
  · have zero : (Char.ofNat n).toNat = 0 := congrArg Char.toNat (dif_neg valid)
    rw [zero] at code
    cases code

theorem fold_eq_newline_iff (c : Char) : Text.fold c = '\n' ↔ c = '\n' := by
  unfold Text.fold
  split
  · have same := Text.toLower_of_ascii (· == '\n') (by decide) c
    rw [← beq_iff_eq, same, beq_iff_eq]
  · next notAscii =>
    have other : c ≠ '\n' := by
      rintro rfl
      exact notAscii (by decide)
    rcases Text.CaseRange.lookup_cases Text.foldTable c with ⟨-, same⟩ | ⟨r, hr, covered, moved⟩
    · rw [same]
    · refine iff_of_false (fun newline => ?_) other
      have first := Nat.blt_eq.mp (List.all_eq_true.mp image_checked r hr)
      have bounds := Text.CaseRange.image_bounds covered
      rw [moved] at newline
      have ten := eq_of_ofNat_eq_newline newline
      omega

section Splits

variable {token : Token} {tokens : List Token} {a c : Char} {text : List Char}

theorem splits_single {fits : Char → Prop}
    (takes : ∀ piece, token.Takes piece ↔ ∃ c, piece = [c] ∧ fits c) :
    Splits Token.Takes (token :: tokens) text ↔
      ∃ c rest, text = c :: rest ∧ fits c ∧ Splits Token.Takes tokens rest := by
  rw [splits_cons]
  constructor
  · rintro ⟨piece, rest, rfl, taken, others⟩
    obtain ⟨c, rfl, fit⟩ := (takes piece).mp taken
    exact ⟨c, rest, rfl, fit, others⟩
  · rintro ⟨c, rest, rfl, fit, others⟩
    exact ⟨[c], rest, rfl, (takes [c]).mpr ⟨c, rfl, fit⟩, others⟩

theorem splits_one : Splits Token.Takes (.one :: tokens) text ↔
    ∃ c rest, text = c :: rest ∧ c ≠ '\n' ∧ Splits Token.Takes tokens rest :=
  splits_single fun _ => Iff.rfl

theorem splits_char : Splits Token.Takes (.char a :: tokens) text ↔
    ∃ c rest, text = c :: rest ∧ Text.fold a = Text.fold c ∧ Splits Token.Takes tokens rest :=
  splits_single fun _ => Iff.rfl

theorem splits_many_nil :
    Splits Token.Takes (.many :: tokens) [] ↔ Splits Token.Takes tokens [] := by
  rw [splits_cons]
  constructor
  · rintro ⟨piece, rest, split, -, others⟩
    rw [(List.append_eq_nil_iff.mp split.symm).2] at others
    exact others
  · intro others
    exact ⟨[], [], rfl, List.not_mem_nil, others⟩

theorem splits_many_cons :
    Splits Token.Takes (.many :: tokens) (c :: text) ↔
      Splits Token.Takes tokens (c :: text) ∨
        c ≠ '\n' ∧ Splits Token.Takes (.many :: tokens) text := by
  rw [splits_cons, splits_cons]
  constructor
  · rintro ⟨piece, rest, split, plain, others⟩
    cases piece with
    | nil =>
      rw [split]
      exact .inl others
    | cons d piece =>
      obtain ⟨rfl, rfl⟩ := List.cons.inj split
      obtain ⟨first, later⟩ := not_or.mp fun found => plain (List.mem_cons.mpr found)
      exact .inr ⟨Ne.symm first, piece, rest, rfl, later, others⟩
  · rintro (others | ⟨first, piece, rest, rfl, plain, others⟩)
    · exact ⟨[], c :: text, rfl, List.not_mem_nil, others⟩
    · refine ⟨c :: piece, rest, rfl, fun found => ?_, others⟩
      exact (List.mem_cons.mp found).elim (Ne.symm first) plain

end Splits

theorem tells_rowBefore {token : Token} {tokens : List Token} {front : List Char} {row : List Bool}
    (h : Tells (Splits Token.Takes tokens) (endings [] front) row) :
    Tells (Splits Token.Takes (token :: tokens)) (endings [] front)
      (rowBefore (front.map Text.fold) token row) := by
  rw [endings_eq_cons]
  cases token with
  | one =>
    refine .cons (by simp [splits_one]) (tells_zipWith (fun c text => ?_) h)
    rw [splits_one, bne_iff_ne, ne_eq, fold_eq_newline_iff]
    simp
  | char a =>
    refine .cons (by simp [splits_char]) (tells_zipWith (fun c text => ?_) h)
    rw [splits_char, beq_iff_eq, eq_comm]
    simp
  | many =>
    rw [endings_eq_cons] at h
    obtain ⟨told, rests, here, others, rfl⟩ := List.forall₂_cons_left_iff.mp h
    have whole : told = true ↔ Splits Token.Takes (.many :: tokens) [] :=
      here.trans splits_many_nil.symm
    have row := tells_runRow fold_eq_newline_iff (fun _ _ => splits_many_cons) whole others
    show Tells _ _ (runRow told ([] ++ [told]) (front.map Text.fold) rests)
    rw [runRow_append]
    exact .cons whole row

/-- The rows tell of every suffix of a value whether it splits along the tokens. -/
theorem tells_rows (ts : List Token) (front : List Char) :
    Tells (Splits Token.Takes ts) (endings [] front)
      (ts.foldr (rowBefore (front.map Text.fold))
        (true :: (front.map Text.fold).map fun _ => false)) := by
  induction ts with
  | nil =>
    have empty : Splits Token.Takes [] = (· = []) := funext fun _ => propext splits_nil
    rw [endings_eq_cons, empty, List.map_map]
    exact .cons (by simp) (tells_empty [] front)
  | cons token ts ih => exact tells_rowBefore ih

theorem matchTokens_iff {ts : List Token} {value : List Char} :
    matchTokens ts value = true ↔ Splits Token.Takes ts value := by
  rw [matchTokens, ← List.map_reverse, beq_iff_eq]
  refine (tells_rows ts value.reverse).getLast ?_
  rw [getLast?_endings, List.reverse_reverse, List.append_nil]

/-- What a regular expression matches, as far as it consists of characters, which match up to case,
of escaped signs, which stand for themselves, and of dots, alone or with a star. -/
inductive Matches : List Char → List Char → Prop
  | done : Matches [] []
  | run {rest piece value : List Char} :
      '\n' ∉ piece → Alone rest → Matches rest value → Matches ('.' :: '*' :: rest) (piece ++ value)
  | any {rest value : List Char} {c : Char} :
      c ≠ '\n' → Alone rest → Matches rest value → Matches ('.' :: rest) (c :: value)
  | escaped {rest value : List Char} {a c : Char} : a ∈ metaChars → Text.fold a = Text.fold c →
      Alone rest → Matches rest value → Matches ('\\' :: a :: rest) (c :: value)
  | plain {rest value : List Char} {a c : Char} : a ∉ metaChars → Text.fold a = Text.fold c →
      Alone rest → Matches rest value → Matches (a :: rest) (c :: value)

section Matches

variable {rest value : List Char} {a : Char}

theorem matches_run (alone : Alone rest) : Matches ('.' :: '*' :: rest) value ↔
    ∃ piece others, value = piece ++ others ∧ '\n' ∉ piece ∧ Matches rest others := by
  constructor
  · intro h
    generalize same : '.' :: '*' :: rest = expression at h
    cases h with
    | done => cases same
    | run plain _ others =>
      cases same
      exact ⟨_, _, rfl, plain, others⟩
    | any _ single _ =>
      cases same
      exact absurd (by decide) (single '*' rfl)
    | escaped => exact absurd (List.cons.inj same).1 (by decide)
    | plain noSign _ _ _ =>
      cases same
      exact absurd (by decide) noSign
  · rintro ⟨piece, others, rfl, plain, matched⟩
    exact .run plain alone matched

theorem matches_any (alone : Alone rest) : Matches ('.' :: rest) value ↔
    ∃ c others, value = c :: others ∧ c ≠ '\n' ∧ Matches rest others := by
  constructor
  · intro h
    generalize same : '.' :: rest = expression at h
    cases h with
    | done => cases same
    | run _ _ _ =>
      cases same
      exact absurd (by decide) (alone '*' rfl)
    | any other _ others =>
      cases same
      exact ⟨_, _, rfl, other, others⟩
    | escaped => exact absurd (List.cons.inj same).1 (by decide)
    | plain noSign _ _ _ =>
      cases same
      exact absurd (by decide) noSign
  · rintro ⟨c, others, rfl, other, matched⟩
    exact .any other alone matched

theorem matches_escaped (sign : a ∈ metaChars) (alone : Alone rest) :
    Matches ('\\' :: a :: rest) value ↔
      ∃ c others, value = c :: others ∧ Text.fold a = Text.fold c ∧ Matches rest others := by
  constructor
  · intro h
    generalize same : '\\' :: a :: rest = expression at h
    cases h with
    | done => cases same
    | run => exact absurd (List.cons.inj same).1 (by decide)
    | any => exact absurd (List.cons.inj same).1 (by decide)
    | escaped _ fit _ others =>
      cases same
      exact ⟨_, _, rfl, fit, others⟩
    | plain noSign _ _ _ =>
      cases same
      exact absurd (by decide) noSign
  · rintro ⟨c, others, rfl, fit, matched⟩
    exact .escaped sign fit alone matched

theorem matches_plain (noSign : a ∉ metaChars) (alone : Alone rest) :
    Matches (a :: rest) value ↔
      ∃ c others, value = c :: others ∧ Text.fold a = Text.fold c ∧ Matches rest others := by
  constructor
  · intro h
    generalize same : a :: rest = expression at h
    cases h with
    | done => cases same
    | run =>
      cases same
      exact absurd (by decide) noSign
    | any =>
      cases same
      exact absurd (by decide) noSign
    | escaped =>
      cases same
      exact absurd (by decide) noSign
    | plain _ fit _ others =>
      cases same
      exact ⟨_, _, rfl, fit, others⟩
  · rintro ⟨c, others, rfl, fit, matched⟩
    exact .plain noSign fit alone matched

end Matches

theorem matches_expression_iff {ts : List Token} {value : List Char} :
    Matches (ts.flatMap expressionOf) value ↔ Splits Token.Takes ts value := by
  induction ts generalizing value with
  | nil =>
    rw [splits_nil]
    constructor
    · rintro ⟨⟩
      rfl
    · rintro rfl
      exact .done
  | cons token ts ih =>
    have alone := alone_expression ts
    rw [List.flatMap_cons]
    cases token with
    | many =>
      rw [splits_cons]
      simp only [← ih]
      exact matches_run alone
    | one =>
      rw [splits_one]
      simp only [← ih]
      exact matches_any alone
    | char c =>
      rw [splits_char]
      simp only [← ih]
      rcases expressionOf_char_cases c with ⟨sign, escaped⟩ | ⟨noSign, same⟩
      · rw [escaped]
        exact matches_escaped sign alone
      · rw [same]
        exact matches_plain noSign alone

theorem eq_of_compile {fits : List Char → Bool} {pattern : List Char} {g : Glob}
    (h : compile pattern fits = .ok g) : g = ⟨pattern⟩ := by
  unfold compile at h
  split at h
  · cases h
    rfl
  · cases h

/-- Title patterns mean what their tokens say. A pattern is spelled by one list of tokens. A value
matches the pattern if and only if it splits into consecutive pieces, one for each token in order, and
so if and only if the regular expression of the pattern matches it. This holds of every pattern, and
so of those that compile, whichever are found too large for that. -/
theorem isMatch_iff_splits (pattern value : List Char) :
    (∀ ts, Spells ts pattern ↔ ts = tokens pattern) ∧
      (Glob.isMatch ⟨pattern⟩ value = true ↔ Splits Token.Takes (tokens pattern) value) ∧
      (Glob.isMatch ⟨pattern⟩ value = true ↔ Matches (expression pattern) value) ∧
      ∀ (fits : List Char → Bool) (g : Glob), compile pattern fits = .ok g →
        (g.isMatch value = true ↔ Splits Token.Takes (tokens pattern) value) ∧
        (g.isMatch value = true ↔ Matches (expression pattern) value) := by
  have splits : Glob.isMatch ⟨pattern⟩ value = true ↔ Splits Token.Takes (tokens pattern) value :=
    matchTokens_iff
  have expressed : Glob.isMatch ⟨pattern⟩ value = true ↔ Matches (expression pattern) value :=
    splits.trans matches_expression_iff.symm
  refine ⟨fun ts => spells_iff, splits, expressed, fun fits g compiled => ?_⟩
  rw [eq_of_compile compiled]
  exact ⟨splits, expressed⟩

/-- A dollar before a wildcard, signs of expressions, and a letter beyond ASCII. -/
private def priced : List Char := ['$', '$', '*', '*', 'é', '$', '?', '.', '$']

theorem isMatch_iff_splits_priced :
    ∃ g, compile priced = .ok g ∧
      g.isMatch ['$', 'a', '*', '*', 'É', '!', '.', '$'] = true ∧
      Splits Token.Takes [.char '$', .many, .char '*', .char 'é', .one, .char '.', .char '$']
        ['$', 'a', '*', '*', 'É', '!', '.', '$'] ∧
      g.isMatch ['$', '*', 'É', '\n', '.', '$'] = false ∧
      ¬ Matches (expression priced) ['$', '*', 'É', '\n', '.', '$'] := by
  have compiled : compile priced = .ok ⟨priced⟩ := by decide
  have tokens : tokens priced =
      [.char '$', .many, .char '*', .char 'é', .one, .char '.', .char '$'] := by rfl
  have found : Glob.isMatch ⟨priced⟩ ['$', 'a', '*', '*', 'É', '!', '.', '$'] = true := by
    decide
  have newline : Glob.isMatch ⟨priced⟩ ['$', '*', 'É', '\n', '.', '$'] = false := by
    decide
  obtain ⟨-, -, -, small⟩ := isMatch_iff_splits priced ['$', 'a', '*', '*', 'É', '!', '.', '$']
  obtain ⟨-, -, expressed, -⟩ := isMatch_iff_splits priced ['$', '*', 'É', '\n', '.', '$']
  refine ⟨⟨priced⟩, compiled, found, ?_, newline, fun matched => ?_⟩
  · rw [← tokens]
    exact (small isSmall _ compiled).1.mp found
  · rw [expressed.mpr matched] at newline
    cases newline

end TagQuery.Glob
