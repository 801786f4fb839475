import TagQuery.Json.Token

/-! JSON values, read from tokens with a stack of the arrays and objects that are still open. -/
namespace TagQuery.Json

inductive Value where
  | null
  | bool (value : Bool)
  | number (digits : List Char)
  | string (letters : List Letter)
  | array (items : List Value)
  | object (members : List (List Letter × Value))

/-- An open array with the items before, or an open object with the members before and the key of
the next one; both in reverse. -/
inductive Frame where
  | array (items : List Value)
  | object (members : List (List Letter × Value)) (key : List Letter)

inductive State where
  | value (frames : List Frame)
  | firstItem (frames : List Frame)
  | firstKey (frames : List Frame)
  | key (members : List (List Letter × Value)) (frames : List Frame)
  | colon (members : List (List Letter × Value)) (key : List Letter) (frames : List Frame)
  | after (value : Value) (frames : List Frame)

def State.start (frames : List Frame) (lexeme : Lexeme) : Except Fault State :=
  match lexeme.token with
  | .null => .ok (.after .null frames)
  | .bool b => .ok (.after (.bool b) frames)
  | .number digits => .ok (.after (.number digits) frames)
  | .string letters => .ok (.after (.string letters) frames)
  | .openArray => .ok (.firstItem frames)
  | .openObject => .ok (.firstKey frames)
  | .bad fault => .error fault
  | _ => .error ⟨.expectedValue, lexeme.here.drop 1⟩

/-- The fault of a token where a key should be: a string that is not closed has its own. -/
def Lexeme.noKey (lexeme : Lexeme) : Fault :=
  match lexeme.token, lexeme.here with
  | .bad fault, '"' :: _ => fault
  | _, here => ⟨.expectedKey, here.drop 1⟩

def State.step (state : State) (lexeme : Lexeme) : Except Fault State :=
  match state, lexeme.token with
  | .value frames, _ => State.start frames lexeme
  | .firstItem frames, .closeArray => .ok (.after (.array []) frames)
  | .firstItem frames, _ => State.start (.array [] :: frames) lexeme
  | .firstKey frames, .closeObject => .ok (.after (.object []) frames)
  | .firstKey frames, .string k => .ok (.colon [] k frames)
  | .key members frames, .string k => .ok (.colon members k frames)
  | .colon members k frames, .colon => .ok (.value (.object members k :: frames))
  | .after v (.array items :: frames), .comma => .ok (.value (.array (v :: items) :: frames))
  | .after v (.array items :: frames), .closeArray =>
    .ok (.after (.array (v :: items).reverse) frames)
  | .after v (.object members k :: frames), .comma => .ok (.key ((k, v) :: members) frames)
  | .after v (.object members k :: frames), .closeObject =>
    .ok (.after (.object ((k, v) :: members).reverse) frames)
  | .key _ _, .closeObject => .error ⟨.trailingComma, lexeme.here.drop 1⟩
  | .firstKey _, _ => .error lexeme.noKey
  | .key _ _, _ => .error lexeme.noKey
  | .colon _ _ _, _ => .error ⟨.expectedColon, lexeme.here.drop 1⟩
  | .after _ (.array _ :: _), _ => .error ⟨.expectedArrayEnd, lexeme.here.drop 1⟩
  | .after _ (.object _ _ :: _), _ => .error ⟨.expectedObjectEnd, lexeme.here.drop 1⟩
  | .after _ [], _ => .error ⟨.trailingCharacters, lexeme.here.drop 1⟩

def State.finish : State → Except Fault Value
  | .after v [] => .ok v
  | .after _ (.array _ :: _) => .error ⟨.endInArray, []⟩
  | .after _ (.object _ _ :: _) => .error ⟨.endInObject, []⟩
  | .value _ => .error ⟨.endInValue, []⟩
  | .firstItem _ => .error ⟨.endInArray, []⟩
  | .firstKey _ => .error ⟨.endInObject, []⟩
  | .key _ _ => .error ⟨.endInObject, []⟩
  | .colon _ _ _ => .error ⟨.endInObject, []⟩

def State.run (state : State) : List Lexeme → Except Fault Value
  | [] => state.finish
  | lexeme :: rest =>
    match state.step lexeme with
    | .ok next => next.run rest
    | .error fault => .error fault

def Value.parse (text : List Char) : Except Fault Value :=
  (State.value []).run (tokens text)

/-- Collects the characters of a string after those in `read`, last first. Units that are
surrogates have to come in pairs. -/
def charsFrom (read : List Char) : List Letter → Option (List Char)
  | [] => some read.reverse
  | .char c :: rest => charsFrom (c :: read) rest
  | .unit high :: .unit low :: rest =>
    if 0xD800 ≤ high ∧ high < 0xDC00 then
      if 0xDC00 ≤ low ∧ low < 0xE000 then
        charsFrom (Char.ofNat (0x10000 + (high - 0xD800) * 0x400 + (low - 0xDC00)) :: read) rest
      else none
    else if 0xDC00 ≤ high ∧ high < 0xE000 then none
    else charsFrom (Char.ofNat high :: read) (.unit low :: rest)
  | .unit code :: rest =>
    if 0xD800 ≤ code ∧ code < 0xE000 then none else charsFrom (Char.ofNat code :: read) rest

def chars? (letters : List Letter) : Option (List Char) :=
  charsFrom [] letters

end TagQuery.Json
