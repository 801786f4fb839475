/-! The tokens of JSON texts. -/
namespace TagQuery.Json

inductive Cause where
  | endInValue
  | endInString
  | endInArray
  | endInObject
  | expectedColon
  | expectedArrayEnd
  | expectedObjectEnd
  | expectedIdent
  | expectedValue
  | expectedKey
  | invalidEscape
  | invalidNumber
  | controlCharacter
  | loneSurrogate
  | trailingComma
  | trailingCharacters
  deriving DecidableEq, Repr

def Cause.message : Cause → String
  | .endInValue => "EOF while parsing a value"
  | .endInString => "EOF while parsing a string"
  | .endInArray => "EOF while parsing a list"
  | .endInObject => "EOF while parsing an object"
  | .expectedColon => "expected `:`"
  | .expectedArrayEnd => "expected `,` or `]`"
  | .expectedObjectEnd => "expected `,` or `\x7d`"
  | .expectedIdent => "expected ident"
  | .expectedValue => "expected value"
  | .expectedKey => "key must be a string"
  | .invalidEscape => "invalid escape"
  | .invalidNumber => "invalid number"
  | .controlCharacter => "control character (\\u0000-\\u001F) found while parsing a string"
  | .loneSurrogate => "lone leading surrogate in hex escape"
  | .trailingComma => "trailing comma"
  | .trailingCharacters => "trailing characters"

/-- A cause, and the text that follows the place where it shows. -/
structure Fault where
  cause : Cause
  after : List Char
  deriving DecidableEq, Repr

/-- One letter of a string: a character, or a 16-bit unit written as `\u` and four digits. -/
inductive Letter where
  | char (c : Char)
  | unit (code : Nat)
  deriving DecidableEq, Repr

inductive Token where
  | openArray
  | closeArray
  | openObject
  | closeObject
  | comma
  | colon
  | null
  | bool (value : Bool)
  | number (digits : List Char)
  | string (letters : List Letter)
  | bad (fault : Fault)
  deriving DecidableEq, Repr

structure Lexeme where
  token : Token
  here : List Char
  deriving DecidableEq, Repr

/-- Only these four characters may stand between tokens. -/
def isSpace (c : Char) : Bool :=
  c == ' ' || c == '\t' || c == '\n' || c == '\r'

def hexDigit? (c : Char) : Option Nat :=
  if '0' ≤ c ∧ c ≤ '9' then some (c.toNat - 48)
  else if 'a' ≤ c ∧ c ≤ 'f' then some (c.toNat - 87)
  else if 'A' ≤ c ∧ c ≤ 'F' then some (c.toNat - 55)
  else none

def hexUnit? (a b c d : Char) : Option Nat :=
  match hexDigit? a, hexDigit? b, hexDigit? c, hexDigit? d with
  | some a, some b, some c, some d => some (4096 * a + 256 * b + 16 * c + d)
  | _, _, _, _ => none

def escaped? (c : Char) : Option Char :=
  match c with
  | '"' => some '"'
  | '\\' => some '\\'
  | '/' => some '/'
  | 'b' => some (Char.ofNat 8)
  | 'f' => some (Char.ofNat 12)
  | 'n' => some '\n'
  | 'r' => some '\r'
  | 't' => some '\t'
  | _ => none

/-- The letters up to the closing quote, after those read already in reverse, and the rest of the
text. -/
def scanString (read : List Letter) : List Char → Except Fault (List Letter × List Char)
  | [] => .error ⟨.endInString, []⟩
  | '"' :: rest => .ok (read.reverse, rest)
  | ['\\'] => .error ⟨.endInString, []⟩
  | '\\' :: 'u' :: a :: b :: c :: d :: rest =>
    match hexUnit? a b c d with
    | some code => scanString (.unit code :: read) rest
    | none => .error ⟨.invalidEscape, rest⟩
  | '\\' :: e :: rest =>
    match escaped? e with
    | some c => scanString (.char c :: read) rest
    | none => .error ⟨.invalidEscape, rest⟩
  | c :: rest =>
    if c.toNat < 0x20 then .error ⟨.controlCharacter, rest⟩
    else scanString (.char c :: read) rest

def scanDigits (text : List Char) : Option (List Char × List Char) :=
  match text.takeWhile Char.isDigit with
  | [] => none
  | digits => some (digits, text.dropWhile Char.isDigit)

/-- Zero alone, or digits that do not start with zero. -/
def scanInteger (text : List Char) : Option (List Char × List Char) :=
  match scanDigits text with
  | some ('0' :: _ :: _, _) => none
  | digits => digits

def scanFraction : List Char → Option (List Char × List Char)
  | '.' :: rest => (scanDigits rest).map fun d => ('.' :: d.1, d.2)
  | rest => some ([], rest)

def scanExponent : List Char → Option (List Char × List Char)
  | e :: rest =>
    if e == 'e' || e == 'E' then
      match rest with
      | '+' :: rest => (scanDigits rest).map fun d => (e :: '+' :: d.1, d.2)
      | '-' :: rest => (scanDigits rest).map fun d => (e :: '-' :: d.1, d.2)
      | rest => (scanDigits rest).map fun d => (e :: d.1, d.2)
    else some ([], e :: rest)
  | [] => some ([], [])

def scanSign : List Char → List Char × List Char
  | '-' :: rest => (['-'], rest)
  | rest => ([], rest)

def scanNumber (text : List Char) : Option (List Char × List Char) :=
  let (sign, text) := scanSign text
  match scanInteger text with
  | none => none
  | some (whole, text) =>
    match scanFraction text with
    | none => none
    | some (fraction, text) =>
      match scanExponent text with
      | none => none
      | some (exponent, text) => some (sign ++ whole ++ fraction ++ exponent, text)

/-- A word that must be written out. -/
def scanWord (word : List Char) (token : Token) (text : List Char) : Token × List Char :=
  if word.isPrefixOf text then (token, text.drop word.length)
  else (.bad ⟨.expectedIdent, text.drop 1⟩, [])

def scanToken (c : Char) (rest : List Char) : Token × List Char :=
  match c with
  | '[' => (.openArray, rest)
  | ']' => (.closeArray, rest)
  | '\x7b' => (.openObject, rest)
  | '\x7d' => (.closeObject, rest)
  | ',' => (.comma, rest)
  | ':' => (.colon, rest)
  | 'n' => scanWord "null".toList .null (c :: rest)
  | 't' => scanWord "true".toList (.bool true) (c :: rest)
  | 'f' => scanWord "false".toList (.bool false) (c :: rest)
  | '"' =>
    match scanString [] rest with
    | .ok (letters, rest) => (.string letters, rest)
    | .error fault => (.bad fault, [])
  | c =>
    if c == '-' || c.isDigit then
      match scanNumber (c :: rest) with
      | some (digits, rest) => (.number digits, rest)
      | none => (.bad ⟨.invalidNumber, rest⟩, [])
    else (.bad ⟨.expectedValue, rest⟩, [])

/-- The tokens of a text after those read already, last first. Each round takes one character or
more, so a budget of the text's length is enough. Reading stops at a bad token. -/
def tokensFrom (read : List Lexeme) : Nat → List Char → List Lexeme
  | budget + 1, c :: rest =>
    if isSpace c then tokensFrom read budget rest
    else
      let (token, after) := scanToken c rest
      tokensFrom (⟨token, c :: rest⟩ :: read) budget after
  | _, _ => read.reverse

def tokens (text : List Char) : List Lexeme :=
  tokensFrom [] text.length text

end TagQuery.Json
