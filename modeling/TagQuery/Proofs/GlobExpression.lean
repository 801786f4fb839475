import Mathlib.Logic.Function.Basic
import TagQuery.Glob

/-! A title pattern is written as a regular expression token by token. The signs of the tokens are
not escaped and all other characters that would be read as signs are, so the expression shows where
each token begins. Main statement: the pattern can be read back from the expression, so that
different patterns have different expressions. The expression may also be written without any
tokens, by escaping the text between two wildcards as a whole. -/
namespace TagQuery.Glob

def Token.spelled : Token → List Char
  | .char c => [c]
  | .one => ['$', '?']
  | .many => ['$', '*']

theorem spelled_tokensFrom (read : List Token) (pattern : List Char) :
    (tokensFrom read pattern).flatMap Token.spelled =
      read.reverse.flatMap Token.spelled ++ pattern := by
  fun_induction tokensFrom read pattern with
  | case1 read => rw [List.append_nil]
  | case2 read rest ih => simp [ih, Token.spelled]
  | case3 read rest ih => simp [ih, Token.spelled]
  | case4 read c rest notMany notOne ih => simp [ih, Token.spelled]

theorem spelled_tokens (pattern : List Char) :
    (tokens pattern).flatMap Token.spelled = pattern :=
  spelled_tokensFrom [] pattern

def decode : List Char → List Char
  | [] => []
  | '\\' :: c :: rest => c :: decode rest
  | '.' :: '*' :: rest => '$' :: '*' :: decode rest
  | '.' :: rest => '$' :: '?' :: decode rest
  | c :: rest => c :: decode rest

/-- A character of a pattern is escaped, or has no meaning of its own. -/
theorem expressionOf_char_cases (c : Char) :
    (c ∈ metaChars ∧ expressionOf (.char c) = ['\\', c]) ∨
      c ∉ metaChars ∧ expressionOf (.char c) = [c] := by
  rw [expressionOf]
  split
  · next found => exact .inl ⟨List.contains_iff_mem.mp found, rfl⟩
  · next plain => exact .inr ⟨fun found => plain (List.contains_iff_mem.mpr found), rfl⟩

theorem ne_of_not_mem_metaChars {a c : Char} (ha : a ∈ metaChars) (hc : c ∉ metaChars) : c ≠ a := by
  rintro rfl
  exact hc ha

def repeaters : List Char :=
  "*+?\x7b".toList

/-- What follows does not repeat what stands before it. -/
def Alone (rest : List Char) : Prop :=
  ∀ sign ∈ rest.head?, sign ∉ repeaters

theorem not_mem_repeaters {c : Char} (h : c ∉ metaChars) : c ∉ repeaters := by
  have signs : ∀ sign ∈ repeaters, metaChars.contains sign = true :=
    List.all_eq_true.mp (by decide)
  exact fun found => h (List.contains_iff_mem.mp (signs c found))

/-- A token never repeats the one before it: the star belongs to the dot that it stands behind. -/
theorem alone_expression (tokens : List Token) : Alone (tokens.flatMap expressionOf) := by
  intro sign first
  cases tokens with
  | nil => cases first
  | cons token tokens =>
    rw [List.flatMap_cons] at first
    cases token with
    | one | many =>
      cases first
      decide
    | char c =>
      rcases expressionOf_char_cases c with ⟨-, escaped⟩ | ⟨plain, same⟩
      · rw [escaped] at first
        cases first
        decide
      · rw [same] at first
        cases first
        exact not_mem_repeaters plain

theorem decode_expressionOf (token : Token) {rest : List Char} (alone : Alone rest) :
    decode (expressionOf token ++ rest) = token.spelled ++ decode rest := by
  cases token with
  | many => rfl
  | one =>
    have noStar : ∀ behind, rest = '*' :: behind → False := by
      rintro behind rfl
      exact alone '*' rfl (by decide)
    exact decode.eq_4 rest noStar
  | char c =>
    rcases expressionOf_char_cases c with ⟨-, escaped⟩ | ⟨plain, same⟩
    · rw [escaped]
      rfl
    · have notEscape : c ≠ '\\' := ne_of_not_mem_metaChars (by decide) plain
      have notDot : c ≠ '.' := ne_of_not_mem_metaChars (by decide) plain
      rw [same]
      exact decode.eq_5 c rest (fun _ _ escape _ => notEscape escape)
        (fun _ dot _ => notDot dot) notDot

theorem decode_expressions (tokens : List Token) :
    decode (tokens.flatMap expressionOf) = tokens.flatMap Token.spelled := by
  induction tokens with
  | nil => rfl
  | cons token tokens ih =>
    rw [List.flatMap_cons, List.flatMap_cons,
      decode_expressionOf token (alone_expression tokens), ih]

theorem decode_expression (pattern : List Char) : decode (expression pattern) = pattern := by
  rw [expression, decode_expressions, spelled_tokens]

def escape (text : List Char) : List Char :=
  text.flatMap fun c => if metaChars.contains c then ['\\', c] else [c]

/-- Reads the rest of a pattern after what is written already and a text that is still to be
escaped. -/
def transcribeFrom (written literal : List Char) : List Char → List Char
  | [] => written ++ escape literal
  | '$' :: '*' :: rest => transcribeFrom (written ++ escape literal ++ ['.', '*']) [] rest
  | '$' :: '?' :: rest => transcribeFrom (written ++ escape literal ++ ['.']) [] rest
  | c :: rest => transcribeFrom written (literal ++ [c]) rest

def transcribe (pattern : List Char) : List Char :=
  transcribeFrom [] [] pattern

/-- What is written, with the text that is pending, is the expression of the tokens so far. -/
theorem transcribeFrom_eq {written literal : List Char} {read : List Token} (pattern : List Char)
    (h : written ++ escape literal = read.reverse.flatMap expressionOf) :
    transcribeFrom written literal pattern = (tokensFrom read pattern).flatMap expressionOf := by
  fun_induction tokensFrom read pattern generalizing written literal with
  | case1 read => exact h
  | case2 read rest ih =>
    refine ih ?_
    rw [h, List.reverse_cons, List.flatMap_append]
    exact List.append_nil _
  | case3 read rest ih =>
    refine ih ?_
    rw [h, List.reverse_cons, List.flatMap_append]
    exact List.append_nil _
  | case4 read c rest notMany notOne ih =>
    rw [transcribeFrom.eq_4 _ _ _ _ notMany notOne]
    refine ih ?_
    rw [escape, List.flatMap_append, ← List.append_assoc, ← escape, h, List.reverse_cons,
      List.flatMap_append]
    rfl

/-- The expression of a pattern loses nothing of it: the pattern is read back, so different patterns
have different expressions. Written text by text, it is the same. -/
theorem expression_decodable :
    (∀ pattern, decode (expression pattern) = pattern) ∧ Function.Injective expression ∧
      ∀ pattern, transcribe pattern = expression pattern := by
  refine ⟨decode_expression, Function.LeftInverse.injective decode_expression, fun pattern => ?_⟩
  exact transcribeFrom_eq pattern rfl

end TagQuery.Glob
