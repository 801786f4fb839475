import Mathlib.Data.List.Forall2
import TagQuery.Proofs.Spelling

/-! The grammar of JSON from its tokens up: the tokens of a value are those of its parts, with
brackets around them and commas between them. The reader keeps a stack of what is still open
instead. Main statement: a text is read as a value exactly if the grammar allows to write the value
so. -/
namespace TagQuery.Json

theorem sizeOf_of_mem_members {m : List Letter × Value} {members : List (List Letter × Value)}
    (h : m ∈ members) : sizeOf m.2 < sizeOf (Value.object members) := by
  have part : sizeOf m.2 < sizeOf m := by
    obtain ⟨letters, value⟩ := m
    simp only [Prod.mk.sizeOf_spec]
    omega
  have whole := List.sizeOf_lt_of_mem h
  rw [Value.object.sizeOf_spec]
  omega

def Value.tokens : Value → List Token
  | .null => [.null]
  | .bool b => [.bool b]
  | .number digits => [.number digits]
  | .string letters => [.string letters]
  | .array items => .openArray :: [.comma].intercalate (items.map tokens) ++ [.closeArray]
  | .object members => .openObject
      :: [.comma].intercalate (members.map fun m => .string m.1 :: .colon :: tokens m.2)
      ++ [.closeObject]
decreasing_by
  · decreasing_tactic
  · exact sizeOf_of_mem_members ‹_›

/-- A text of a value: its tokens, with any blanks around them. -/
def Value.Written (v : Value) (text : List Char) : Prop :=
  Spaced v.tokens text

def memberTokens (m : List Letter × Value) : List Token :=
  .string m.1 :: .colon :: m.2.tokens

theorem Value.tokens_array (items : List Value) : (Value.array items).tokens =
    .openArray :: [.comma].intercalate (items.map tokens) ++ [.closeArray] := by
  rw [tokens]

theorem Value.tokens_object (members : List (List Letter × Value)) :
    (Value.object members).tokens =
      .openObject :: [.comma].intercalate (members.map memberTokens) ++ [.closeObject] := by
  rw [tokens]
  rfl

/-- Proofs about all values by the parts of arrays and objects. -/
@[elab_as_elim, induction_eliminator]
theorem Value.induct {motive : Value → Prop} (null : motive .null)
    (bool : ∀ b, motive (.bool b)) (number : ∀ digits, motive (.number digits))
    (string : ∀ letters, motive (.string letters))
    (array : ∀ items, (∀ v ∈ items, motive v) → motive (.array items))
    (object : ∀ members, (∀ m ∈ members, motive m.2) → motive (.object members)) (v : Value) :
    motive v :=
  match v with
  | .null => null
  | .bool b => bool b
  | .number digits => number digits
  | .string letters => string letters
  | .array items => array items fun v _ => induct null bool number string array object v
  | .object members => object members fun m _ => induct null bool number string array object m.2
decreasing_by
  · decreasing_tactic
  · exact sizeOf_of_mem_members ‹_›

/-- With something between the parts, each but the first follows it. -/
theorem intercalate_cons_eq {α : Type} (a : α) (x : List α) (xs : List (List α)) :
    [a].intercalate (x :: xs) = x ++ xs.flatMap (a :: ·) := by
  induction xs generalizing x with
  | nil => simp
  | cons y xs ih =>
    rw [List.intercalate_cons_cons, ih, List.flatMap_cons]
    simp

/-- With something between the parts, each but the last is followed by it. -/
theorem intercalate_concat_eq {α : Type} (a : α) (xs : List (List α)) (x : List α) :
    [a].intercalate (xs ++ [x]) = xs.flatMap (· ++ [a]) ++ x := by
  induction xs with
  | nil => simp
  | cons y xs ih =>
    rw [List.cons_append, intercalate_cons_eq, List.flatMap_cons, List.append_assoc, ← ih]
    cases xs with
    | nil => simp
    | cons z xs => simp [intercalate_cons_eq]

/-- Parts with commas between them are written as texts of the parts with commas between them. -/
theorem Spaced.separated {parts : List (List Token)} {pieces : List (List Char)}
    (h : List.Forall₂ Spaced parts pieces) :
    Spaced ([.comma].intercalate parts) ([','].intercalate pieces) := by
  induction h with
  | nil => exact .nil
  | @cons part piece parts pieces first rest ih =>
    cases rest with
    | nil => simpa using first
    | cons =>
      rw [List.intercalate_cons_cons, List.intercalate_cons_cons, List.append_assoc,
        List.append_assoc]
      exact first.append (.token .comma ih)

/-- And there is no other way to write them, as the blanks around a comma go with the parts. -/
theorem Spaced.pieces {part : List Token} {parts : List (List Token)} {text : List Char}
    (h : Spaced ([.comma].intercalate (part :: parts)) text) :
    ∃ pieces, List.Forall₂ Spaced (part :: parts) pieces ∧ text = [','].intercalate pieces := by
  induction parts generalizing part text with
  | nil => exact ⟨[text], .cons (by simpa using h) .nil, by simp⟩
  | cons next parts ih =>
    rw [List.intercalate_cons_cons, List.append_assoc] at h
    obtain ⟨x, y, hx, hy, rfl⟩ := h.cut
    obtain ⟨comma, rest, hc, hr, rfl⟩ := hy.cut
    obtain ⟨before, word, after, hb, spelled, ha, rfl⟩ := hc.of_singleton
    cases spelled
    obtain ⟨pieces, each, same⟩ := ih (hr.blanks ha.of_nil)
    have first : Spaced part (x ++ before) := by
      have joined := hx.append hb
      rwa [List.append_nil] at joined
    refine ⟨(x ++ before) :: pieces, .cons first each, ?_⟩
    cases each with
    | cons =>
      rw [List.intercalate_cons_cons, ← same]
      simp

theorem Value.written_object {members : List (List Letter × Value)} {pieces : List (List Char)}
    {opening closing : List Char} (opens : Spaced [.openObject] opening)
    (each : List.Forall₂ (fun m piece => Spaced (memberTokens m) piece) members pieces)
    (closes : Spaced [.closeObject] closing) :
    (Value.object members).Written (opening ++ [','].intercalate pieces ++ closing) := by
  rw [Written, tokens_object]
  exact (opens.append (.separated (List.forall₂_map_left_iff.mpr each))).append closes

/-- The text of an object can be cut into the texts of its members. -/
theorem Value.Written.pieces {members : List (List Letter × Value)} {text : List Char}
    (h : (Value.object members).Written text) : ∃ opening pieces closing,
      Spaced [.openObject] opening ∧
      List.Forall₂ (fun m piece => Spaced (memberTokens m) piece) members pieces ∧
      Spaced [.closeObject] closing ∧ text = opening ++ [','].intercalate pieces ++ closing := by
  rw [Written, tokens_object] at h
  obtain ⟨start, closing, hs, hc, rfl⟩ := h.cut
  obtain ⟨opening, inner, ho, hi, rfl⟩ := Spaced.cut (a := [.openObject]) hs
  cases members with
  | nil =>
    -- the blanks between the braces go with the first of them
    exact ⟨opening ++ inner, [], closing, ho.append hi, .nil, hc, by simp⟩
  | cons m members =>
    obtain ⟨pieces, each, rfl⟩ := Spaced.pieces hi
    exact ⟨opening, pieces, closing, ho, List.forall₂_map_left_iff.mp each, hc, rfl⟩

/-- Reads on from a state, whatever the places of the tokens. -/
def State.follow (state : State) (tokens : List Token) : Except Fault Value :=
  state.run (tokens.map fun token => ⟨token, []⟩)

theorem State.follow_cons {state next : State} {token : Token}
    (h : state.step ⟨token, []⟩ = .ok next) (tokens : List Token) :
    state.follow (token :: tokens) = next.follow tokens := by
  rw [follow, List.map_cons, run, h]
  rfl

/-- The first item of an array starts as any other value, since no value starts with a bracket that
closes. -/
theorem State.follow_firstItem (v : Value) (frames : List Frame) (rest : List Token) :
    (State.firstItem frames).follow (v.tokens ++ rest) =
      (State.value (.array [] :: frames)).follow (v.tokens ++ rest) := by
  cases v <;> simp [Value.tokens, follow, run, step, start]

theorem State.follow_items {items : List Value} (h : ∀ v ∈ items, ∀ (frames : List Frame)
      (rest : List Token), (State.value frames).follow (v.tokens ++ rest) =
        (State.after v frames).follow rest) (read : List Value) (v : Value) (frames : List Frame)
    (rest : List Token) : (State.after v (.array read :: frames)).follow
      (items.flatMap (.comma :: ·.tokens) ++ .closeArray :: rest) =
        (State.after (.array (read.reverse ++ v :: items)) frames).follow rest := by
  induction items generalizing read v with
  | nil =>
    rw [List.flatMap_nil, List.nil_append, follow_cons rfl]
    simp
  | cons w items ih =>
    rw [List.flatMap_cons, List.append_assoc, List.cons_append, follow_cons rfl,
      h w List.mem_cons_self, ih fun x hx => h x (List.mem_cons_of_mem w hx)]
    simp

theorem State.follow_members {members : List (List Letter × Value)} (h : ∀ m ∈ members,
      ∀ (frames : List Frame) (rest : List Token),
        (State.value frames).follow (m.2.tokens ++ rest) =
          (State.after m.2 frames).follow rest) (read : List (List Letter × Value))
    (key : List Letter) (v : Value) (frames : List Frame) (rest : List Token) :
    (State.after v (.object read key :: frames)).follow
      (members.flatMap (.comma :: memberTokens ·) ++ .closeObject :: rest) =
        (State.after (.object (read.reverse ++ (key, v) :: members)) frames).follow rest := by
  induction members generalizing read key v with
  | nil =>
    rw [List.flatMap_nil, List.nil_append, follow_cons rfl]
    simp
  | cons m members ih =>
    rw [List.flatMap_cons, List.append_assoc, List.cons_append, follow_cons rfl, memberTokens,
      List.cons_append, follow_cons rfl, List.cons_append, follow_cons rfl,
      h m List.mem_cons_self, ih fun x hx => h x (List.mem_cons_of_mem m hx)]
    simp

/-- The tokens of a value are read as that value, whatever is open and whatever follows. -/
theorem State.follow_tokens (v : Value) (frames : List Frame) (rest : List Token) :
    (State.value frames).follow (v.tokens ++ rest) = (State.after v frames).follow rest := by
  induction v generalizing frames rest with
  | null | bool | number | string =>
    rw [Value.tokens, List.cons_append, follow_cons rfl]
    rfl
  | array items ih =>
    rw [Value.tokens_array, List.cons_append, List.cons_append, follow_cons rfl, List.append_assoc]
    cases items with
    | nil => exact follow_cons rfl rest
    | cons v items =>
      rw [List.map_cons, intercalate_cons_eq, List.flatMap_map, List.append_assoc,
        follow_firstItem, ih v List.mem_cons_self]
      exact follow_items (fun w hw => ih w (List.mem_cons_of_mem v hw)) [] v frames rest
  | object members ih =>
    rw [Value.tokens_object, List.cons_append, List.cons_append, follow_cons rfl, List.append_assoc]
    cases members with
    | nil => exact follow_cons rfl rest
    | cons m members =>
      rw [List.map_cons, intercalate_cons_eq, List.flatMap_map, List.append_assoc, memberTokens,
        List.cons_append, follow_cons rfl, List.cons_append, follow_cons rfl,
        ih m List.mem_cons_self]
      exact follow_members (fun w hw => ih w (List.mem_cons_of_mem m hw)) [] m.1 m.2 frames rest

def Frame.tokens : Frame → List Token
  | .array items => .openArray :: items.reverse.flatMap (·.tokens ++ [.comma])
  | .object members key => .openObject :: members.reverse.flatMap (memberTokens · ++ [.comma])
      ++ [.string key, .colon]

def State.seen : State → List Token
  | .value frames => frames.reverse.flatMap (·.tokens)
  | .firstItem frames => frames.reverse.flatMap (·.tokens) ++ [.openArray]
  | .firstKey frames => frames.reverse.flatMap (·.tokens) ++ [.openObject]
  | .key members frames => frames.reverse.flatMap (·.tokens)
      ++ .openObject :: members.reverse.flatMap (memberTokens · ++ [.comma])
  | .colon members k frames => frames.reverse.flatMap (·.tokens)
      ++ .openObject :: members.reverse.flatMap (memberTokens · ++ [.comma]) ++ [.string k]
  | .after v frames => frames.reverse.flatMap (·.tokens) ++ v.tokens

theorem State.seen_start {frames : List Frame} {lexeme : Lexeme} {next : State}
    (h : start frames lexeme = .ok next) :
    next.seen = frames.reverse.flatMap (·.tokens) ++ [lexeme.token] := by
  unfold start at h
  split at h
  all_goals cases h
  all_goals simp [seen, Value.tokens, *]

theorem Value.tokens_array_concat (items : List Value) (v : Value) :
    (Value.array (items ++ [v])).tokens =
      .openArray :: items.flatMap (·.tokens ++ [.comma]) ++ v.tokens ++ [.closeArray] := by
  rw [tokens_array, List.map_append, List.map_singleton, intercalate_concat_eq, List.flatMap_map]
  simp

theorem Value.tokens_object_concat (members : List (List Letter × Value))
    (m : List Letter × Value) : (Value.object (members ++ [m])).tokens =
      .openObject :: members.flatMap (memberTokens · ++ [.comma]) ++ memberTokens m
        ++ [.closeObject] := by
  rw [tokens_object, List.map_append, List.map_singleton, intercalate_concat_eq, List.flatMap_map]
  simp

/-- A step takes its token, and forgets nothing. -/
theorem State.seen_step {state next : State} {lexeme : Lexeme} (h : state.step lexeme = .ok next) :
    next.seen = state.seen ++ [lexeme.token] := by
  unfold step at h
  split at h
  case h_1 => exact seen_start h
  case h_3 =>
    rw [seen_start h]
    simp [seen, Frame.tokens]
  all_goals cases h
  case h_2 | h_4 => simp [seen, Value.tokens, *]
  case h_9 => simp [seen, Frame.tokens, Value.tokens_array_concat, *]
  case h_11 => simp [seen, Frame.tokens, Value.tokens_object_concat, memberTokens, *]
  all_goals simp [seen, Frame.tokens, memberTokens, *]

theorem State.seen_run {state : State} {lexemes : List Lexeme} {v : Value}
    (h : state.run lexemes = .ok v) : v.tokens = state.seen ++ lexemes.map (·.token) := by
  induction lexemes generalizing state with
  | nil =>
    rw [run] at h
    unfold finish at h
    split at h
    · cases h
      simp [seen]
    all_goals cases h
  | cons lexeme lexemes ih =>
    rw [run] at h
    split at h
    · next stepped =>
      rw [ih h, seen_step stepped, List.map_cons, List.append_assoc, List.singleton_append]
    · cases h

/-- Tokens without a fault and without two numbers side by side. -/
structure Tidy (tokens : List Token) : Prop where
  good : ∀ token ∈ tokens, token.isBad = false
  apart : Apart tokens

theorem Tidy.nil : Tidy [] :=
  ⟨nofun, .nil⟩

theorem Tidy.singleton {token : Token} (h : token.isBad = false) : Tidy [token] :=
  ⟨fun _ ht => List.mem_singleton.mp ht ▸ h, .singleton token⟩

/-- A mark keeps the numbers on its two sides apart. -/
theorem Tidy.join {mark : Token} (good : mark.isBad = false) (mute : mark.isNumber = false)
    {a b : List Token} (ha : Tidy a) (hb : Tidy b) : Tidy (a ++ mark :: b) where
  good token ht := by
    rcases List.mem_append.mp ht with ht | ht
    · exact ha.good token ht
    · rcases List.mem_cons.mp ht with rfl | ht
      · exact good
      · exact hb.good token ht
  apart := by
    refine List.isChain_append.mpr ⟨ha.apart, List.isChain_cons.mpr ⟨?_, hb.apart⟩, ?_⟩
    · intro y _ number
      rw [mute] at number
      cases number
    · intro x _ y hy _
      cases hy
      exact mute

theorem Tidy.separated {parts : List (List Token)} (h : ∀ part ∈ parts, Tidy part) :
    Tidy ([.comma].intercalate parts) := by
  induction parts with
  | nil => exact .nil
  | cons part parts ih =>
    have first := h part List.mem_cons_self
    have rest := ih fun x hx => h x (List.mem_cons_of_mem part hx)
    cases parts with
    | nil => simpa using first
    | cons next parts =>
      rw [List.intercalate_cons_cons, List.append_assoc]
      exact first.join rfl rfl rest

theorem Tidy.enclosed {left right : Token} (good : left.isBad = false ∧ right.isBad = false)
    (mute : left.isNumber = false ∧ right.isNumber = false) {a : List Token} (h : Tidy a) :
    Tidy (left :: a ++ [right]) :=
  Tidy.nil.join good.1 mute.1 (h.join good.2 mute.2 .nil)

theorem Value.tidy_tokens (v : Value) : Tidy v.tokens := by
  induction v with
  | null | bool | number | string =>
    rw [tokens]
    exact .singleton rfl
  | array items ih =>
    rw [tokens_array]
    refine .enclosed ⟨rfl, rfl⟩ ⟨rfl, rfl⟩ (.separated fun part hp => ?_)
    obtain ⟨v, hv, rfl⟩ := List.mem_map.mp hp
    exact ih v hv
  | object members ih =>
    rw [tokens_object]
    refine .enclosed ⟨rfl, rfl⟩ ⟨rfl, rfl⟩ (.separated fun part hp => ?_)
    obtain ⟨m, hm, rfl⟩ := List.mem_map.mp hp
    exact Tidy.join rfl rfl (.singleton rfl) (ih m hm)

/-- Where a token stands only matters to a fault. -/
theorem State.start_token {frames : List Frame} {next : State} {lexeme : Lexeme}
    (h : start frames lexeme = .ok next) {other : Lexeme} (same : other.token = lexeme.token) :
    start frames other = .ok next := by
  unfold start at *
  rw [same]
  split at h <;> simp_all

theorem State.step_token {state next : State} {lexeme : Lexeme} (h : state.step lexeme = .ok next)
    {other : Lexeme} (same : other.token = lexeme.token) : state.step other = .ok next := by
  unfold step at *
  rw [same]
  split at h
  case h_1 => exact start_token h same
  case h_3 => simpa [*] using start_token h same
  all_goals simp_all

theorem State.run_kinds {state : State} {lexemes : List Lexeme} {value : Value}
    (h : state.run lexemes = .ok value) {others : List Lexeme}
    (same : others.map (·.token) = lexemes.map (·.token)) : state.run others = .ok value := by
  induction lexemes generalizing state others with
  | nil =>
    rw [List.map_eq_nil_iff.mp same]
    exact h
  | cons lexeme lexemes ih =>
    obtain ⟨other, others, rfl, first, rest⟩ := List.map_eq_cons_iff.mp same
    rw [run] at h
    split at h
    · next next stepped =>
      rw [run, step_token stepped first]
      exact ih h rest
    · cases h

theorem Value.parse_eq_ok_iff_kinds {text : List Char} {v : Value} :
    parse text = .ok v ↔ kinds text = v.tokens := by
  constructor
  · intro h
    exact (State.seen_run h).symm
  · intro same
    have read : (State.value []).follow v.tokens = .ok v := by
      have followed := State.follow_tokens v [] []
      rw [List.append_nil] at followed
      exact followed
    refine State.run_kinds read ?_
    rw [List.map_map]
    exact same.trans (List.map_id _).symm

/-- A text is read as a value exactly if it is one of the texts of the value. -/
theorem Value.parse_eq_ok_iff {text : List Char} {v : Value} :
    parse text = .ok v ↔ v.Written text := by
  rw [parse_eq_ok_iff_kinds]
  constructor
  · intro same
    have spaced : Spaced (kinds text) text := spaced_kinds (same ▸ v.tidy_tokens.good)
    rwa [same] at spaced
  · intro written
    exact written.kinds_eq v.tidy_tokens.apart

end TagQuery.Json
