import Mathlib.Data.List.Chain
import TagQuery.Json.Value

/-! The grammar of JSON up to its tokens, said apart from the scanner: what a string, a number and
every other token look like, and texts that spell tokens with blanks around them. Main statements:
where the scanner finds no fault, the text spells the tokens found, and a text that spells tokens is
scanned into them, unless two numbers stand side by side. -/
namespace TagQuery.Json

def isPlain (c : Char) : Bool :=
  c != '"' && c != '\\' && 0x20 ≤ c.toNat

/-- The letters of a string, and a text for them between the quotes. -/
inductive Quotes : List Letter → List Char → Prop where
  | nil : Quotes [] []
  | char {c : Char} {letters : List Letter} {text : List Char} (plain : isPlain c = true)
      (rest : Quotes letters text) : Quotes (.char c :: letters) (c :: text)
  | escape {e c : Char} {letters : List Letter} {text : List Char} (named : escaped? e = some c)
      (rest : Quotes letters text) : Quotes (.char c :: letters) ('\\' :: e :: text)
  | unit {a b c d : Char} {code : Nat} {letters : List Letter} {text : List Char}
      (hex : hexUnit? a b c d = some code) (rest : Quotes letters text) :
      Quotes (.unit code :: letters) ('\\' :: 'u' :: a :: b :: c :: d :: text)

structure IsDigits (text : List Char) : Prop where
  nonempty : text ≠ []
  digits : ∀ c ∈ text, c.isDigit = true

structure IsWhole (text : List Char) : Prop extends IsDigits text where
  unpadded : text.head? = some '0' → text = ['0']

inductive IsFraction : List Char → Prop where
  | none : IsFraction []
  | point {digits : List Char} (h : IsDigits digits) : IsFraction ('.' :: digits)

inductive IsExponent : List Char → Prop where
  | none : IsExponent []
  | unsigned {e : Char} {digits : List Char} (mark : e = 'e' ∨ e = 'E') (h : IsDigits digits) :
      IsExponent (e :: digits)
  | signed {e sign : Char} {digits : List Char} (mark : e = 'e' ∨ e = 'E')
      (either : sign = '+' ∨ sign = '-') (h : IsDigits digits) : IsExponent (e :: sign :: digits)

inductive IsNumber : List Char → Prop where
  | mk {sign whole fraction exponent : List Char} (minus : sign = [] ∨ sign = ['-'])
      (integer : IsWhole whole) (fractional : IsFraction fraction)
      (exponential : IsExponent exponent) : IsNumber (sign ++ whole ++ fraction ++ exponent)

inductive Spells : Token → List Char → Prop where
  | openArray : Spells .openArray ['[']
  | closeArray : Spells .closeArray [']']
  | openObject : Spells .openObject ['\x7b']
  | closeObject : Spells .closeObject ['\x7d']
  | comma : Spells .comma [',']
  | colon : Spells .colon [':']
  | null : Spells .null ['n', 'u', 'l', 'l']
  | yes : Spells (.bool true) ['t', 'r', 'u', 'e']
  | no : Spells (.bool false) ['f', 'a', 'l', 's', 'e']
  | number {digits : List Char} (h : IsNumber digits) : Spells (.number digits) digits
  | string {letters : List Letter} {text : List Char} (h : Quotes letters text) :
      Spells (.string letters) ('"' :: text ++ ['"'])

/-- Tokens, and a text that spells them one after the other with any blanks around them. -/
inductive Spaced : List Token → List Char → Prop where
  | nil : Spaced [] []
  | blank {c : Char} {tokens : List Token} {text : List Char} (space : isSpace c = true)
      (rest : Spaced tokens text) : Spaced tokens (c :: text)
  | token {token : Token} {word : List Char} {tokens : List Token} {text : List Char}
      (spelled : Spells token word) (rest : Spaced tokens text) :
      Spaced (token :: tokens) (word ++ text)

theorem Spaced.blanks {blanks : List Char} (h : ∀ c ∈ blanks, isSpace c = true)
    {tokens : List Token} {text : List Char} (rest : Spaced tokens text) :
    Spaced tokens (blanks ++ text) := by
  induction blanks with
  | nil => exact rest
  | cons c blanks ih =>
    exact .blank (h c List.mem_cons_self) (ih fun b hb => h b (List.mem_cons_of_mem c hb))

theorem Spaced.singleton {token : Token} {word : List Char} (h : Spells token word) :
    Spaced [token] word := by
  have alone := Spaced.token h .nil
  rwa [List.append_nil] at alone

theorem Spaced.append {a b : List Token} {x y : List Char} (ha : Spaced a x) (hb : Spaced b y) :
    Spaced (a ++ b) (x ++ y) := by
  induction ha with
  | nil => exact hb
  | blank space _ ih => exact .blank space ih
  | @token token word _ _ spelled _ ih =>
    rw [List.cons_append, List.append_assoc]
    exact .token spelled ih

/-- A text can be cut wherever its tokens are. -/
theorem Spaced.cut {a b : List Token} {text : List Char} (h : Spaced (a ++ b) text) :
    ∃ x y, Spaced a x ∧ Spaced b y ∧ text = x ++ y := by
  generalize whole : a ++ b = tokens at h
  induction h generalizing a with
  | nil =>
    obtain ⟨rfl, rfl⟩ := List.append_eq_nil_iff.mp whole
    exact ⟨[], [], .nil, .nil, rfl⟩
  | @blank c _ _ space _ ih =>
    obtain ⟨x, y, hx, hy, rfl⟩ := ih whole
    exact ⟨c :: x, y, .blank space hx, hy, rfl⟩
  | @token token word tokens text spelled rest ih =>
    cases a with
    | nil =>
      subst whole
      exact ⟨[], word ++ text, .nil, .token spelled rest, rfl⟩
    | cons t a =>
      obtain ⟨rfl, others⟩ := List.cons.inj whole
      obtain ⟨x, y, hx, hy, rfl⟩ := ih others
      exact ⟨word ++ x, y, .token spelled hx, hy, by rw [List.append_assoc]⟩

theorem Spaced.of_nil {text : List Char} (h : Spaced [] text) : ∀ c ∈ text, isSpace c = true := by
  generalize none : [] = tokens at h
  induction h with
  | nil => nofun
  | @blank c _ _ space _ ih =>
    intro d hd
    rcases List.mem_cons.mp hd with rfl | hd
    · exact space
    · exact ih none d hd
  | token => cases none

theorem Spaced.of_singleton {token : Token} {text : List Char} (h : Spaced [token] text) :
    ∃ before word after, Spaced [] before ∧ Spells token word ∧ Spaced [] after ∧
      text = before ++ word ++ after := by
  generalize one : [token] = tokens at h
  induction h with
  | nil => cases one
  | @blank c _ _ space _ ih =>
    obtain ⟨before, word, after, hb, spelled, ha, rfl⟩ := ih one
    exact ⟨c :: before, word, after, .blank space hb, spelled, ha, rfl⟩
  | @token _ word _ after spelled rest =>
    cases one
    exact ⟨[], word, after, .nil, spelled, rest, rfl⟩

theorem scanString_of_quotes {letters : List Letter} {text : List Char} (h : Quotes letters text)
    (read : List Letter) (rest : List Char) :
    scanString read (text ++ '"' :: rest) = .ok (read.reverse ++ letters, rest) := by
  induction h generalizing read with
  | nil => simp [scanString]
  | @char c letters text plain _ ih =>
    simp only [isPlain, Bool.and_eq_true, bne_iff_ne, decide_eq_true_eq] at plain
    obtain ⟨⟨quote, escape⟩, control⟩ := plain
    have step : scanString read (c :: (text ++ '"' :: rest)) =
        scanString (.char c :: read) (text ++ '"' :: rest) := by
      rw [scanString]
      · rw [if_neg (by omega)]
      all_goals simp_all
    rw [List.cons_append, step, ih]
    simp
  | @escape e c letters text named _ ih =>
    have step : scanString read ('\\' :: e :: (text ++ '"' :: rest)) =
        scanString (.char c :: read) (text ++ '"' :: rest) := by
      rw [scanString]
      · simp only [named]
      · rintro a b c' d rest' rfl -
        cases named
    rw [List.cons_append, List.cons_append, step, ih]
    simp
  | @unit a b c d code letters text hex _ ih =>
    simp only [List.cons_append, scanString, hex, ih]
    simp

theorem quotes_of_scanString {read letters : List Letter} {text rest : List Char}
    (h : scanString read text = .ok (letters, rest)) :
    ∃ own inner, letters = read.reverse ++ own ∧ Quotes own inner ∧
      text = inner ++ '"' :: rest := by
  fun_induction scanString read text with
  | case1 | case3 | case5 | case7 | case8 => cases h
  | case2 read text =>
    cases h
    exact ⟨[], [], by simp, .nil, rfl⟩
  | case4 read a b c d text code hex ih =>
    obtain ⟨own, inner, rfl, quotes, rfl⟩ := ih h
    exact ⟨.unit code :: own, _, by simp, .unit hex quotes, rfl⟩
  | case6 read e text _ c named ih =>
    obtain ⟨own, inner, rfl, quotes, rfl⟩ := ih h
    exact ⟨.char c :: own, _, by simp, .escape named quotes, rfl⟩
  | case9 read c text quote lone unit escape control ih =>
    have backslash : c ≠ '\\' := by
      intro same
      cases text with
      | nil => exact lone same rfl
      | cons e text => exact escape e text same rfl
    have plain : isPlain c = true := by
      simp only [isPlain, Bool.and_eq_true, bne_iff_ne, decide_eq_true_eq]
      exact ⟨⟨quote, backslash⟩, Nat.le_of_not_lt control⟩
    obtain ⟨own, inner, rfl, quotes, rfl⟩ := ih h
    exact ⟨.char c :: own, _, by simp, .char plain quotes, rfl⟩

def NoDigit (rest : List Char) : Prop :=
  ∀ c ∈ rest.head?, c.isDigit = false

/-- Nothing comes next that could belong to a number. -/
def Stops (rest : List Char) : Prop :=
  ∀ c ∈ rest.head?, c.isDigit = false ∧ c ≠ '.' ∧ c ≠ 'e' ∧ c ≠ 'E'

theorem IsDigits.isDigit_of_append {digits rest rest' : List Char} {c : Char} (h : IsDigits digits)
    (cut : digits ++ rest = c :: rest') : c.isDigit = true := by
  obtain ⟨d, ds, rfl⟩ := List.exists_cons_of_ne_nil h.nonempty
  rw [← (List.cons.inj cut).1]
  exact h.digits d List.mem_cons_self

theorem scanDigits_eq_some_iff {text digits rest : List Char} :
    scanDigits text = some (digits, rest) ↔
      IsDigits digits ∧ NoDigit rest ∧ text = digits ++ rest := by
  constructor
  · intro h
    unfold scanDigits at h
    split at h
    · cases h
    · next some_digit =>
      cases h
      have first := List.head?_dropWhile_not Char.isDigit text
      refine ⟨⟨some_digit, List.all_eq_true.mp List.all_takeWhile⟩, fun c hc => ?_,
        List.takeWhile_append_dropWhile.symm⟩
      rw [hc] at first
      exact first
  · rintro ⟨⟨nonempty, digit⟩, stop, rfl⟩
    have none_taken : rest.takeWhile Char.isDigit = [] ∧ rest.dropWhile Char.isDigit = rest := by
      cases rest with
      | nil => exact ⟨rfl, rfl⟩
      | cons c rest => simp [stop c rfl]
    rw [scanDigits, List.takeWhile_append_of_pos digit, List.dropWhile_append_of_pos digit,
      none_taken.1, none_taken.2, List.append_nil]
    split
    · exact absurd rfl nonempty
    · rfl

theorem scanInteger_eq_some_iff {text whole rest : List Char} :
    scanInteger text = some (whole, rest) ↔
      IsWhole whole ∧ NoDigit rest ∧ text = whole ++ rest := by
  constructor
  · intro h
    unfold scanInteger at h
    split at h
    · cases h
    · next unpadded =>
      obtain ⟨digits, stop, cut⟩ := scanDigits_eq_some_iff.mp h
      refine ⟨⟨digits, fun zero => ?_⟩, stop, cut⟩
      match whole with
      | [c] => simpa using zero
      | c :: d :: ds =>
        cases Option.some.inj zero
        exact absurd h (unpadded d ds rest)
  · rintro ⟨⟨digits, unpadded⟩, stop, cut⟩
    have scanned := scanDigits_eq_some_iff.mpr ⟨digits, stop, cut⟩
    rw [scanInteger, scanned]
    split
    · next padded =>
      cases padded
      cases unpadded rfl
    · rfl

theorem scanFraction_append {fraction rest : List Char} (h : IsFraction fraction)
    (stop : ∀ c ∈ rest.head?, c.isDigit = false ∧ c ≠ '.') :
    scanFraction (fraction ++ rest) = some (fraction, rest) := by
  cases h with
  | none =>
    rw [List.nil_append]
    unfold scanFraction
    split
    · exact absurd rfl (stop '.' rfl).2
    · rfl
  | point digits =>
    have scanned := scanDigits_eq_some_iff.mpr ⟨digits, fun c hc => (stop c hc).1, rfl⟩
    rw [List.cons_append, scanFraction, scanned]
    rfl

theorem fraction_of_scanFraction {text fraction rest : List Char}
    (h : scanFraction text = some (fraction, rest)) :
    IsFraction fraction ∧ text = fraction ++ rest := by
  unfold scanFraction at h
  split at h
  · obtain ⟨⟨digits, after⟩, scanned, same⟩ := Option.map_eq_some_iff.mp h
    cases same
    obtain ⟨digits, -, rfl⟩ := scanDigits_eq_some_iff.mp scanned
    exact ⟨.point digits, rfl⟩
  · cases h
    exact ⟨.none, rfl⟩

theorem scanExponent_append {exponent rest : List Char} (h : IsExponent exponent)
    (stop : Stops rest) : scanExponent (exponent ++ rest) = some (exponent, rest) := by
  have after : NoDigit rest := fun c hc => (stop c hc).1
  cases h with
  | none =>
    cases rest with
    | nil => rfl
    | cons c rest => simp [scanExponent, (stop c rfl).2.2]
  | @unsigned e digits mark h =>
    have scanned := scanDigits_eq_some_iff.mpr ⟨h, after, rfl⟩
    have marked : (e == 'e' || e == 'E') = true := by simpa using mark
    rw [List.cons_append, scanExponent, if_pos marked, scanned]
    · rfl
    all_goals
      intro rest' same
      cases h.isDigit_of_append same
  | @signed e sign digits mark either h =>
    have scanned := scanDigits_eq_some_iff.mpr ⟨h, after, rfl⟩
    have marked : (e == 'e' || e == 'E') = true := by simpa using mark
    rcases either with rfl | rfl
    all_goals
      rw [List.cons_append, List.cons_append, scanExponent, if_pos marked, scanned]
      rfl

theorem exponent_of_scanExponent {text exponent rest : List Char}
    (h : scanExponent text = some (exponent, rest)) :
    IsExponent exponent ∧ text = exponent ++ rest := by
  unfold scanExponent at h
  split at h
  · split at h
    · next marked =>
      have mark := by simpa using marked
      split at h
      all_goals
        obtain ⟨⟨digits, after⟩, scanned, same⟩ := Option.map_eq_some_iff.mp h
        cases same
        obtain ⟨digits, -, rfl⟩ := scanDigits_eq_some_iff.mp scanned
      · exact ⟨.signed mark (.inl rfl) digits, rfl⟩
      · exact ⟨.signed mark (.inr rfl) digits, rfl⟩
      · exact ⟨.unsigned mark digits, rfl⟩
    · cases h
      exact ⟨.none, rfl⟩
  · cases h
    exact ⟨.none, rfl⟩

theorem IsExponent.ends {exponent rest : List Char} (h : IsExponent exponent) (stop : Stops rest) :
    ∀ c ∈ (exponent ++ rest).head?, c.isDigit = false ∧ c ≠ '.' := by
  intro c hc
  cases h with
  | none => exact ⟨(stop c hc).1, (stop c hc).2.1⟩
  | unsigned mark | signed mark =>
    cases hc
    rcases mark with rfl | rfl <;> decide

theorem IsFraction.ends {fraction rest : List Char} (h : IsFraction fraction)
    (stop : NoDigit rest) : NoDigit (fraction ++ rest) := by
  intro c hc
  cases h with
  | none => exact stop c hc
  | point =>
    cases hc
    rfl

theorem scanSign_append {sign whole rest : List Char} (minus : sign = [] ∨ sign = ['-'])
    (h : IsDigits whole) : scanSign (sign ++ (whole ++ rest)) = (sign, whole ++ rest) := by
  rcases minus with rfl | rfl
  · rw [List.nil_append]
    unfold scanSign
    split
    · next same => cases h.isDigit_of_append same
    · rfl
  · rfl

theorem scanNumber_append {digits rest : List Char} (h : IsNumber digits) (stop : Stops rest) :
    scanNumber (digits ++ rest) = some (digits, rest) := by
  obtain @⟨sign, whole, fraction, exponent, minus, integer, fractional, exponential⟩ := h
  have ends := exponential.ends stop
  have scanned_whole := scanInteger_eq_some_iff.mpr
    ⟨integer, fractional.ends fun c hc => (ends c hc).1, rfl⟩
  have scanned_fraction := scanFraction_append fractional ends
  have scanned_exponent := scanExponent_append exponential stop
  simp only [scanNumber, List.append_assoc, scanSign_append minus integer.toIsDigits, scanned_whole,
    scanned_fraction, scanned_exponent]

theorem number_of_scanNumber {text digits rest : List Char}
    (h : scanNumber text = some (digits, rest)) : IsNumber digits ∧ text = digits ++ rest := by
  have signed : ((scanSign text).1 = [] ∨ (scanSign text).1 = ['-']) ∧
      text = (scanSign text).1 ++ (scanSign text).2 := by
    unfold scanSign
    split <;> simp
  simp only [scanNumber] at h
  split at h
  · cases h
  · next scanned_whole =>
    split at h
    · cases h
    · next scanned_fraction =>
      split at h
      · cases h
      · next scanned_exponent =>
        cases h
        obtain ⟨integer, -, cut⟩ := scanInteger_eq_some_iff.mp scanned_whole
        obtain ⟨fractional, rfl⟩ := fraction_of_scanFraction scanned_fraction
        obtain ⟨exponential, rfl⟩ := exponent_of_scanExponent scanned_exponent
        refine ⟨.mk signed.1 integer fractional exponential, ?_⟩
        calc text = (scanSign text).1 ++ (scanSign text).2 := signed.2
          _ = _ := by
            rw [cut]
            simp only [List.append_assoc]

/-- A number starts with a digit or with its sign. -/
theorem IsNumber.starts {digits : List Char} (h : IsNumber digits) :
    ∃ c rest, digits = c :: rest ∧ (c = '-' ∨ c.isDigit = true) := by
  obtain @⟨sign, whole, fraction, exponent, minus, integer, -, -⟩ := h
  obtain ⟨d, ds, rfl⟩ := List.exists_cons_of_ne_nil integer.nonempty
  rcases minus with rfl | rfl
  · exact ⟨d, _, rfl, .inr (integer.digits d List.mem_cons_self)⟩
  · exact ⟨'-', _, rfl, .inl rfl⟩

def Token.isNumber : Token → Bool
  | .number _ => true
  | _ => false

def Token.isBad : Token → Bool
  | .bad _ => true
  | _ => false

theorem scanToken_number {c : Char} (h : c = '-' ∨ c.isDigit = true) (rest : List Char) :
    isSpace c = false ∧ scanToken c rest =
      match scanNumber (c :: rest) with
      | some (digits, rest) => (.number digits, rest)
      | none => (.bad ⟨.invalidNumber, rest⟩, []) := by
  constructor
  · apply Bool.eq_false_iff.mpr
    intro space
    simp only [isSpace, Bool.or_eq_true, beq_iff_eq] at space
    rcases space with ((rfl | rfl) | rfl) | rfl <;> revert h <;> decide
  · unfold scanToken
    split
    case h_11 => exact if_pos (by simpa using h)
    all_goals exact absurd h (by decide)

/-- A word is scanned as its token, if it is no number that goes on. -/
theorem scanToken_append {token : Token} {word rest : List Char} (h : Spells token word)
    (apart : token.isNumber = true → Stops rest) :
    ∃ c tail, word = c :: tail ∧ isSpace c = false ∧
      scanToken c (tail ++ rest) = (token, rest) := by
  cases h with
  | openArray | closeArray | openObject | closeObject | comma | colon | null | yes | no =>
    exact ⟨_, _, rfl, rfl, rfl⟩
  | number h =>
    obtain ⟨c, tail, rfl, starts⟩ := h.starts
    obtain ⟨unspaced, scanned⟩ := scanToken_number starts (tail ++ rest)
    refine ⟨c, tail, rfl, unspaced, ?_⟩
    rw [scanned, ← List.cons_append, scanNumber_append h (apart rfl)]
  | @string letters text h =>
    refine ⟨'"', text ++ ['"'], rfl, rfl, ?_⟩
    have scanned := scanString_of_quotes h [] rest
    simp [scanToken, scanned]

theorem scanWord_cases {word text after : List Char} {token token' : Token}
    (h : scanWord word token text = (token', after)) :
    token'.isBad = true ∧ after = [] ∨ token' = token ∧ text = word ++ after := by
  unfold scanWord at h
  split at h
  · next starts =>
    cases h
    obtain ⟨rest, rfl⟩ := List.isPrefixOf_iff_prefix.mp starts
    exact .inr ⟨rfl, by rw [List.drop_left]⟩
  · cases h
    exact .inl ⟨rfl, rfl⟩

/-- What is scanned is a fault, after which nothing is left, or a word. -/
theorem scanToken_cases {c : Char} {rest after : List Char} {token : Token}
    (h : scanToken c rest = (token, after)) :
    token.isBad = true ∧ after = [] ∨ ∃ word, Spells token word ∧ c :: rest = word ++ after := by
  unfold scanToken at h
  split at h
  · cases h
    exact .inr ⟨_, .openArray, rfl⟩
  · cases h
    exact .inr ⟨_, .closeArray, rfl⟩
  · cases h
    exact .inr ⟨_, .openObject, rfl⟩
  · cases h
    exact .inr ⟨_, .closeObject, rfl⟩
  · cases h
    exact .inr ⟨_, .comma, rfl⟩
  · cases h
    exact .inr ⟨_, .colon, rfl⟩
  · exact (scanWord_cases h).imp id fun ⟨same, cut⟩ => ⟨_, same ▸ .null, cut⟩
  · exact (scanWord_cases h).imp id fun ⟨same, cut⟩ => ⟨_, same ▸ .yes, cut⟩
  · exact (scanWord_cases h).imp id fun ⟨same, cut⟩ => ⟨_, same ▸ .no, cut⟩
  · split at h
    · next scanned =>
      cases h
      obtain ⟨own, inner, rfl, quotes, rfl⟩ := quotes_of_scanString scanned
      exact .inr ⟨_, .string quotes, by simp⟩
    · cases h
      exact .inl ⟨rfl, rfl⟩
  · split at h
    · split at h
      · next scanned =>
        cases h
        obtain ⟨number, cut⟩ := number_of_scanNumber scanned
        exact .inr ⟨_, .number number, cut⟩
      · cases h
        exact .inl ⟨rfl, rfl⟩
    · cases h
      exact .inl ⟨rfl, rfl⟩

theorem Spells.ne_nil {token : Token} {word : List Char} (h : Spells token word) : word ≠ [] := by
  cases h with
  | number h =>
    obtain ⟨c, rest, rfl, -⟩ := h.starts
    exact List.cons_ne_nil c rest
  | _ => exact List.cons_ne_nil _ _

theorem length_scanToken_le (c : Char) (rest : List Char) :
    (scanToken c rest).2.length ≤ rest.length := by
  obtain ⟨token, after, scanned⟩ : ∃ token after, scanToken c rest = (token, after) :=
    ⟨_, _, rfl⟩
  rw [scanned]
  rcases scanToken_cases scanned with ⟨-, rfl⟩ | ⟨word, spelled, cut⟩
  · exact Nat.zero_le _
  · have lengths := congrArg List.length cut
    have some_char := List.length_pos_iff.mpr spelled.ne_nil
    rw [List.length_cons, List.length_append] at lengths
    change after.length ≤ rest.length
    omega

theorem tokensFrom_read (read : List Lexeme) (budget : Nat) (text : List Char) :
    tokensFrom read budget text = read.reverse ++ tokensFrom [] budget text := by
  induction budget generalizing read text with
  | zero => simp [tokensFrom]
  | succ budget ih =>
    cases text with
    | nil => simp [tokensFrom]
    | cons c rest =>
      simp only [tokensFrom]
      split
      · exact ih read rest
      · rw [ih (⟨(scanToken c rest).1, c :: rest⟩ :: read), ih [⟨(scanToken c rest).1, c :: rest⟩]]
        simp

/-- No token is lost to the budget, which only has to be as long as the text. -/
theorem tokensFrom_budget {budget : Nat} {text : List Char} (h : text.length ≤ budget) :
    tokensFrom [] budget text = tokens text := by
  have general : ∀ (budget other : Nat) (read : List Lexeme) (text : List Char),
      text.length ≤ budget → text.length ≤ other →
      tokensFrom read budget text = tokensFrom read other text := by
    intro budget
    induction budget with
    | zero =>
      intro other read text short _
      rw [List.length_eq_zero_iff.mp (Nat.le_zero.mp short)]
      cases other <;> rfl
    | succ budget ih =>
      intro other read text short short'
      cases text with
      | nil => cases other <;> rfl
      | cons c rest =>
        obtain ⟨other, rfl⟩ : ∃ n, other = n + 1 := Nat.exists_eq_add_one.mpr (by
          rw [List.length_cons] at short'
          omega)
        rw [List.length_cons] at short short'
        have after := length_scanToken_le c rest
        simp only [tokensFrom]
        split
        · exact ih other read rest (by omega) (by omega)
        · exact ih other _ _ (by omega) (by omega)
  exact general budget text.length [] text h (Nat.le_refl _)

/-- The tokens of a text without the places where they stand. -/
def kinds (text : List Char) : List Token :=
  (tokens text).map (·.token)

theorem kinds_space {c : Char} (h : isSpace c = true) (rest : List Char) :
    kinds (c :: rest) = kinds rest := by
  rw [kinds, tokens, List.length_cons, tokensFrom, if_pos h]
  rfl

theorem kinds_cons {c : Char} (h : isSpace c = false) {rest after : List Char} {token : Token}
    (scanned : scanToken c rest = (token, after)) : kinds (c :: rest) = token :: kinds after := by
  have short := length_scanToken_le c rest
  rw [scanned] at short
  rw [kinds, tokens, List.length_cons]
  simp only [tokensFrom, h, scanned]
  rw [if_neg (by decide), tokensFrom_read, tokensFrom_budget short]
  rfl

def Apart (tokens : List Token) : Prop :=
  tokens.IsChain fun a b => a.isNumber = true → b.isNumber = false

theorem Spaced.stops {tokens : List Token} {text : List Char} (h : Spaced tokens text)
    (first : ∀ token ∈ tokens.head?, token.isNumber = false) : Stops text := by
  intro c hc
  cases h with
  | nil => cases hc
  | blank space =>
    cases hc
    simp only [isSpace, Bool.or_eq_true, beq_iff_eq] at space
    rcases space with ((rfl | rfl) | rfl) | rfl <;> decide
  | token spelled =>
    cases spelled with
    | number => cases first _ rfl
    | _ =>
      cases hc
      decide

theorem Spaced.kinds_eq {tokens : List Token} {text : List Char} (h : Spaced tokens text)
    (apart : Apart tokens) : kinds text = tokens := by
  induction h with
  | nil => rfl
  | blank space _ ih =>
    rw [kinds_space space]
    exact ih apart
  | @token token word tokens text spelled rest ih =>
    obtain ⟨next, apart⟩ := List.isChain_cons.mp apart
    have ends : token.isNumber = true → Stops text := fun number =>
      rest.stops fun token' h => next token' h number
    obtain ⟨c, tail, rfl, unspaced, scanned⟩ := scanToken_append spelled ends
    rw [List.cons_append, kinds_cons unspaced scanned, ih apart]

theorem spaced_kinds {text : List Char} (good : ∀ token ∈ kinds text, token.isBad = false) :
    Spaced (kinds text) text := by
  induction hn : text.length using Nat.strongRecOn generalizing text with
  | ind n ih =>
    cases text with
    | nil => exact .nil
    | cons c rest =>
      subst hn
      cases space : isSpace c with
      | true =>
        rw [kinds_space space] at good ⊢
        exact .blank space (ih rest.length (Nat.lt_succ_self _) good rfl)
      | false =>
        obtain ⟨token, after, scanned⟩ : ∃ token after, scanToken c rest = (token, after) :=
          ⟨_, _, rfl⟩
        rw [kinds_cons space scanned] at good ⊢
        rcases scanToken_cases scanned with ⟨bad, -⟩ | ⟨word, spelled, cut⟩
        · rw [good token List.mem_cons_self] at bad
          cases bad
        · have short := length_scanToken_le c rest
          rw [scanned] at short
          rw [cut]
          exact .token spelled (ih after.length (Nat.lt_succ_of_le short)
            (fun t ht => good t (List.mem_cons_of_mem token ht)) rfl)

end TagQuery.Json
