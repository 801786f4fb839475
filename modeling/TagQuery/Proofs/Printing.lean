import TagQuery.Phrase.Words
import TagQuery.Proofs.WellFormed

/-! Every well-formed clause can be spelled in a search line: its modifiers first, then its
namespace and its phrase in quotes, where a separator, a dash or a colon has no meaning of its own.
Main statement: reading gives exactly the well-formed lists of clauses, and gives back each of them
from its spelling. -/
namespace TagQuery

def Query.enclosed (text : List Char) : List Char :=
  '"' :: (text ++ ['"'])

def Clause.printed (c : Clause) : List Char :=
  (if c.excluded then ['-'] else []) ++ (if c.exact then ['$'] else []) ++
    match c.subject with
    | .text p => Query.enclosed p.typed
    | .tag space none => Query.enclosed space ++ [':']
    | .tag space (some p) => Query.enclosed space ++ ':' :: Query.enclosed p.typed

/-- Clauses as they can be typed, with the separators `gap` between each two. -/
def Query.printed (gap : List Char) (clauses : List Clause) : List Char :=
  gap.intercalate (clauses.map (·.printed))

/-- A place as it can be typed, a hole as `?` or `*`. -/
def Phrase.Place.typed : Phrase.Place → Char
  | .char c => c
  | .one => '?'
  | .many => '*'

theorem Piece.typed_eq (p : Piece) : p.typed = (Phrase.placesOf p).map Phrase.Place.typed := by
  cases p with
  | lit chars =>
    have kept : Phrase.Place.typed ∘ Phrase.Place.char = id := rfl
    rw [Phrase.placesOf, List.map_map, kept, List.map_id]
    rfl
  | one | many => rfl

theorem Phrase.typed_eq (p : Phrase) : p.typed = p.places.map Phrase.Place.typed := by
  rw [typed, places, List.map_flatMap]
  congr 1
  funext piece
  exact piece.typed_eq

namespace Query

variable {holes : Bool} {d : Draft}

/-- What a character in quotes asks for: itself, or what the hole does that it is read as. -/
def placeOf (holes : Bool) (c : Char) : Phrase.Place :=
  if holes && (c == '?' || c == '_') then .one
  else if holes && (c == '*' || c == '%') then .many
  else .char c

theorem placeOf_cases (holes : Bool) (c : Char) :
    placeOf holes c = .char c ∧ (holes = false ∨ c ≠ '_' ∧ c ≠ '%') ∨
      holes = true ∧ ((c = '?' ∨ c = '_') ∧ placeOf holes c = .one ∨
        (c = '*' ∨ c = '%') ∧ placeOf holes c = .many) := by
  unfold placeOf
  cases holes with
  | false => simp
  | true =>
    by_cases one : c = '?' ∨ c = '_'
    · simp [one]
    · by_cases many : c = '*' ∨ c = '%'
      · simp [one, many]
      · simp only [not_or] at one many
        simp [one, many]

namespace Draft

/-- Two drafts that differ at most in the phrase being read. -/
structure SameScope (d d' : Draft) : Prop where
  quoted : d'.quoted = d.quoted
  space : d'.space = d.space
  excluded : d'.excluded = d.excluded
  exact : d'.exact = d.exact

theorem SameScope.refl (d : Draft) : SameScope d d := ⟨rfl, rfl, rfl, rfl⟩

theorem SameScope.trans {d₁ d₂ d₃ : Draft} (h : SameScope d₁ d₂) (h' : SameScope d₂ d₃) :
    SameScope d₁ d₃ :=
  ⟨h'.quoted.trans h.quoted, h'.space.trans h.space, h'.excluded.trans h.excluded,
    h'.exact.trans h.exact⟩

theorem sameScope_run (d : Draft) (run : List Char) : SameScope d { d with run } :=
  ⟨rfl, rfl, rfl, rfl⟩

theorem sameScope_hole (d : Draft) (p : Piece) : SameScope d (d.hole p) :=
  ⟨rfl, rfl, rfl, rfl⟩

theorem feed_literal (quoted : d.quoted = true) {c : Char} (h : isLiteralChar holes c = true) :
    d.feed holes c = { d with run := c :: d.run } := by
  cases holes <;> simp_all [isLiteralChar, isKept, feed]

theorem foldl_feed_literal (quoted : d.quoted = true) {chars : List Char}
    (h : ∀ c ∈ chars, isLiteralChar holes c = true) :
    chars.foldl (feed holes) d = { d with run := chars.reverse ++ d.run } := by
  induction chars generalizing d with
  | nil => rfl
  | cons c chars ih =>
    have first := feed_literal quoted (h c List.mem_cons_self)
    rw [List.foldl_cons, first, ih (by exact quoted) fun x hx => h x (List.mem_cons_of_mem c hx)]
    simp

theorem foldl_feed_hole (d : Draft) (on : holes = true) {p : Piece} (hp : p.isLit = false) :
    p.typed.foldl (feed holes) d = d.hole p := by
  cases p with
  | lit chars => cases hp
  | one | many => simp [Piece.typed, feed, on]

/-- A phrase typed in quotes is taken over piece by piece. The run before a literal has to be
closed, or the two would become one. -/
theorem foldl_feed_pieces (quoted : d.quoted = true) {pieces : List Piece}
    (literals : ∀ chars, .lit chars ∈ pieces →
      chars ≠ [] ∧ ∀ c ∈ chars, isLiteralChar holes c = true)
    (chain : pieces.IsChain Piece.Apart) (on : holes = true ∨ ∀ p ∈ pieces, p.isLit = true)
    (fresh : ∀ p ∈ pieces.head?, p.isLit = true → d.run = []) :
    ((pieces.flatMap Piece.typed).foldl (feed holes) d).closed = pieces.reverse ++ d.closed ∧
      SameScope d ((pieces.flatMap Piece.typed).foldl (feed holes) d) := by
  induction pieces generalizing d with
  | nil => exact ⟨rfl, .refl d⟩
  | cons p pieces ih =>
    obtain ⟨next, chain'⟩ := List.isChain_cons.mp chain
    have literals' : ∀ chars, .lit chars ∈ pieces →
        chars ≠ [] ∧ ∀ c ∈ chars, isLiteralChar holes c = true :=
      fun chars hc => literals chars (List.mem_cons_of_mem p hc)
    have on' : holes = true ∨ ∀ p ∈ pieces, p.isLit = true :=
      on.imp_right fun all q hq => all q (List.mem_cons_of_mem p hq)
    rw [List.flatMap_cons, List.foldl_append]
    cases lit : p.isLit with
    | true =>
      obtain ⟨chars, rfl⟩ : ∃ chars, p = .lit chars := by
        cases p with
        | lit chars => exact ⟨chars, rfl⟩
        | one | many => cases lit
      obtain ⟨nonempty, inside⟩ := literals chars List.mem_cons_self
      have empty : d.run = [] := fresh _ rfl rfl
      have step := foldl_feed_literal quoted inside
      obtain ⟨closed, same⟩ := @ih { d with run := chars.reverse ++ d.run } quoted literals' chain'
        on' fun q hq isLit => absurd ⟨rfl, isLit⟩ (next q hq)
      rw [Piece.typed, step]
      refine ⟨?_, (sameScope_run d _).trans same⟩
      rw [closed]
      simp [Draft.closed, empty, nonempty]
    | false =>
      have holes_on : holes = true := by
        refine on.resolve_right fun all => ?_
        rw [all p List.mem_cons_self] at lit
        cases lit
      have step := foldl_feed_hole d holes_on lit
      obtain ⟨closed, same⟩ := @ih (d.hole p) quoted literals' chain' on' fun q hq isLit => rfl
      rw [step]
      refine ⟨?_, (sameScope_hole d p).trans same⟩
      rw [closed]
      simp [Draft.closed, hole]

def places (d : Draft) : List Phrase.Place :=
  d.closed.reverse.flatMap Phrase.placesOf

theorem places_eq (d : Draft) :
    d.places = d.pieces.reverse.flatMap Phrase.placesOf ++ d.run.reverse.map .char := by
  unfold places closed
  split
  · next empty => simp [List.isEmpty_iff.mp empty]
  · simp [Phrase.placesOf]

theorem places_hole (d : Draft) (p : Piece) :
    (d.hole p).places = d.places ++ Phrase.placesOf p := by
  rw [places_eq (d.hole p)]
  simp [places, hole]

/-- A character that is no mark where it stands is a place of the phrase. -/
theorem feed_place {c : Char} (quote : c ≠ '"') (dollar : c ≠ '$')
    (dash : ¬ (c = '-' ∧ d.quoted = false ∧ d.opensWord = true))
    (colon : ¬ (c = ':' ∧ d.quoted = false)) :
    (d.feed holes c).places = d.places ++ [placeOf holes c] ∧ SameScope d (d.feed holes c) := by
  by_cases one : (holes && (c == '?' || c == '_')) = true
  · have fed : d.feed holes c = d.hole .one := by simp [feed, quote, one]
    rw [fed, placeOf, if_pos one]
    exact ⟨places_hole d .one, sameScope_hole d .one⟩
  · by_cases many : (holes && (c == '*' || c == '%')) = true
    · have fed : d.feed holes c = d.hole .many := by simp [feed, quote, one, many]
      rw [fed, placeOf, if_neg one, if_pos many]
      exact ⟨places_hole d .many, sameScope_hole d .many⟩
    · have fed : d.feed holes c = { d with run := c :: d.run } := by
        simp [feed, quote, one, many, dash, dollar, colon, and_assoc]
      rw [fed, placeOf, if_neg one, if_neg many, places_eq, places_eq]
      exact ⟨by simp, sameScope_run d _⟩

/-- In quotes every character but a quote and a `$` is a place of the phrase. -/
theorem foldl_feed_places (quoted : d.quoted = true) {text : List Char}
    (h : ∀ c ∈ text, c ≠ '"' ∧ c ≠ '$') :
    (text.foldl (feed holes) d).places = d.places ++ text.map (placeOf holes) ∧
      SameScope d (text.foldl (feed holes) d) := by
  induction text generalizing d with
  | nil => exact ⟨by simp, .refl d⟩
  | cons c text ih =>
    obtain ⟨quote, dollar⟩ := h c List.mem_cons_self
    obtain ⟨first, same⟩ := @feed_place holes d c quote dollar (by simp [quoted]) (by simp [quoted])
    obtain ⟨rest, same'⟩ := ih (same.quoted.trans quoted) fun x hx =>
      h x (List.mem_cons_of_mem c hx)
    rw [List.foldl_cons]
    refine ⟨?_, same.trans same'⟩
    rw [rest, first, List.append_assoc]
    rfl

/-- What was typed for the phrase so far, a hole as `?` or `*`. -/
def written (d : Draft) : List Char :=
  d.pieces.reverse.flatMap Piece.typed ++ d.run.reverse

theorem typed_closed (d : Draft) : d.closed.reverse.flatMap Piece.typed = d.written := by
  unfold closed written
  split
  · next empty => simp [List.isEmpty_iff.mp empty]
  · simp [Piece.typed]

theorem written_eq_places (d : Draft) : d.written = d.places.map Phrase.Place.typed := by
  rw [← typed_closed, places, List.map_flatMap]
  congr 1
  funext p
  exact p.typed_eq

/-- The characters of a namespace are typed as they are. -/
theorem typed_placeOf {c : Char} (h : isSpaceChar holes c = true) :
    (placeOf holes c).typed = c := by
  rcases placeOf_cases holes c with ⟨char, -⟩ | ⟨rfl, ⟨rfl | rfl, one⟩ | ⟨rfl | rfl, many⟩⟩
  · rw [char]
    rfl
  · rw [one]
    rfl
  · simp [isSpaceChar] at h
  · rw [many]
    rfl
  · simp [isSpaceChar] at h

theorem foldl_feed_spaceChar (quoted : d.quoted = true) {text : List Char}
    (h : ∀ c ∈ text, isSpaceChar holes c = true) :
    (text.foldl (feed holes) d).written = d.written ++ text ∧
      SameScope d (text.foldl (feed holes) d) := by
  have plain : ∀ c ∈ text, c ≠ '"' ∧ c ≠ '$' := by
    intro c hc
    have kept := h c hc
    simp only [isSpaceChar, isKept, Bool.and_eq_true, bne_iff_ne] at kept
    exact ⟨kept.1.1.2, kept.1.2⟩
  have typed : text.map (Phrase.Place.typed ∘ placeOf holes) = text.map id :=
    List.map_congr_left fun c hc => typed_placeOf (h c hc)
  obtain ⟨places, same⟩ := @foldl_feed_places holes d quoted text plain
  refine ⟨?_, same⟩
  rw [written_eq_places, places, written_eq_places, List.map_append, List.map_map, typed,
    List.map_id]

/-- A draft with nothing read of a phrase. -/
def fresh (quoted : Bool) (space : Option (List Char)) (excluded exact : Bool) : Draft :=
  { quoted, space, excluded, exact }

theorem foldl_feed_enclosed {text : List Char} {space : Option (List Char)} {excluded exact : Bool}
    (h : SameScope (fresh true space excluded exact)
      (text.foldl (feed holes) (fresh true space excluded exact))) :
    (enclosed text).foldl (feed holes) (fresh false space excluded exact) =
      { text.foldl (feed holes) (fresh true space excluded exact) with quoted := false } := by
  have feed_quote : ∀ d : Draft, d.feed holes '"' = { d with quoted := !d.quoted } := by
    simp [feed]
  have closes : (text.foldl (feed holes) (fresh true space excluded exact)).quoted = true :=
    h.quoted
  rw [enclosed, List.foldl_cons, List.foldl_append, feed_quote]
  change feed holes (text.foldl (feed holes) (fresh true space excluded exact)) '"' = _
  rw [feed_quote, closes]
  rfl

theorem phrase?_of_places (h : d.places ≠ []) :
    ∃ p, d.phrase? = some p ∧ p.places = d.places := by
  unfold phrase? places at *
  cases pieces : d.closed.reverse with
  | nil => simp [pieces] at h
  | cons p ps => exact ⟨_, rfl, rfl⟩

theorem phrase?_of_written (h : d.written ≠ []) :
    ∃ p, d.phrase? = some p ∧ p.typed = d.written := by
  rw [written_eq_places] at h ⊢
  obtain ⟨p, found, places⟩ := phrase?_of_places (mt List.map_eq_nil_iff.mpr h)
  exact ⟨p, found, by rw [p.typed_eq, places]⟩

theorem scope_of_written (h : d.written ≠ []) :
    d.scope = fresh d.quoted (some (Namespace.resolve d.written)) d.excluded d.exact := by
  obtain ⟨p, named, spelled⟩ := phrase?_of_written h
  simp [scope, named, spelled, fresh]

/-- A namespace in quotes before a colon becomes the scope of the clause. -/
theorem foldl_feed_space {space : List Char} (h : Namespace.WellFormed holes space)
    (excluded exact : Bool) :
    (enclosed space ++ [':']).foldl (feed holes) (fresh false none excluded exact) =
      fresh false (some space) excluded exact := by
  obtain ⟨nonempty, fixed, chars⟩ := h
  obtain ⟨typed, same⟩ :=
    @foldl_feed_spaceChar holes (fresh true none excluded exact) rfl space chars
  rw [List.foldl_append, foldl_feed_enclosed same]
  generalize space.foldl (feed holes) (fresh true none excluded exact) = d at typed same
  have whole : ({ d with quoted := false } : Draft).written = space := typed
  have colon : ({ d with quoted := false } : Draft).feed holes ':' =
      ({ d with quoted := false } : Draft).scope := by
    simp [feed]
  rw [List.foldl_cons, List.foldl_nil, colon, scope_of_written (by rw [whole]; exact nonempty),
    whole, fixed, same.excluded, same.exact]
  rfl

theorem ofPieces?_pieces (p : Phrase) : Phrase.ofPieces? p.pieces = some p := by
  obtain ⟨pieces, nonempty⟩ := p
  cases pieces with
  | nil => exact absurd rfl nonempty
  | cons q qs => rfl

theorem clause?_feed_phrase {p : Phrase} (h : p.WellFormed holes) (space : Option (List Char))
    (excluded exact : Bool) :
    ((enclosed p.typed).foldl (feed holes) (fresh false space excluded exact)).clause? =
      some ⟨match space with
        | some space => .tag space (some p)
        | none => .text p, excluded, exact⟩ := by
  have shape : p.pieces.IsChain Piece.Apart ∧ (holes = true ∨ ∀ q ∈ p.pieces, q.isLit = true) := by
    cases holes with
    | true => exact ⟨h.2, .inl rfl⟩
    | false =>
      obtain ⟨chars, single⟩ := h.2
      rw [single]
      exact ⟨.singleton _, .inr (by simp [Piece.isLit])⟩
  obtain ⟨closed, same⟩ := @foldl_feed_pieces holes (fresh true space excluded exact) rfl p.pieces
    h.1 shape.1 shape.2 fun _ _ _ => rfl
  rw [← Phrase.typed] at closed same
  rw [foldl_feed_enclosed same]
  generalize p.typed.foldl (feed holes) (fresh true space excluded exact) = d at closed same
  have phrase : ({ d with quoted := false } : Draft).phrase? = some p := by
    change Phrase.ofPieces? d.closed.reverse = some p
    rw [closed, ← ofPieces?_pieces p]
    simp [Draft.closed, fresh]
  rw [clause?, phrase]
  cases space with
  | none => simp [same.space, same.excluded, same.exact, fresh]
  | some space => simp [same.space, same.excluded, same.exact, fresh]

end Draft

/-- A text that lowercasing leaves alone, no separator breaks, and that leaves no quote open. -/
structure IsPart (text : List Char) : Prop where
  own : ∀ c ∈ text, Text.lowerChar c = [c]
  unbroken : Unbroken false text
  closed : quotedAfter false text = false

theorem isPart_nil : IsPart [] := ⟨by simp, by simp, rfl⟩

theorem IsPart.append {a b : List Char} (ha : IsPart a) (hb : IsPart b) : IsPart (a ++ b) where
  own c hc := (List.mem_append.mp hc).elim (ha.own c) (hb.own c)
  unbroken := unbroken_append.mpr ⟨ha.unbroken, by rw [ha.closed]; exact hb.unbroken⟩
  closed := by rw [quotedAfter_append, ha.closed, hb.closed]

theorem isPart_singleton {c : Char} (own : Text.lowerChar c = [c])
    (separator : Text.isSeparator c = false) (quote : c ≠ '"') : IsPart [c] where
  own x hx := by rw [List.mem_singleton.mp hx, own]
  unbroken := by simp [separator]
  closed := by simp [quote]

/-- Nothing breaks a text in quotes that has no quote itself. -/
theorem unbroken_enclosed {text : List Char} (h : '"' ∉ text) :
    Unbroken false (enclosed text) ∧ quotedAfter false (enclosed text) = false := by
  have inside : Unbroken true text ∧ quotedAfter true text = true := by
    induction text with
    | nil => simp
    | cons c text ih =>
      obtain ⟨first, rest⟩ := not_or.mp (mt List.mem_cons.mpr h)
      have noQuote : (c == '"') = false := beq_eq_false_iff_ne.mpr (Ne.symm first)
      obtain ⟨unbroken, closed⟩ := ih rest
      simp [noQuote, unbroken, closed]
  have quote : Text.isSeparator '"' = false := by decide
  constructor
  · simp [enclosed, inside.1, quote]
  · simp [enclosed, inside.2]

theorem isPart_enclosed {text : List Char} (h : ∀ c ∈ text, isSpaceChar holes c = true) :
    IsPart (enclosed text) := by
  have kept : ∀ c ∈ text, Text.lowerChar c = [c] ∧ c ≠ '"' := by
    intro c hc
    have kept := h c hc
    simp only [isSpaceChar, isKept, Bool.and_eq_true, beq_iff_eq, bne_iff_ne] at kept
    exact kept.1.1
  have quote : Text.lowerChar '"' = ['"'] := by decide
  obtain ⟨unbroken, closed⟩ := unbroken_enclosed fun mem => (kept _ mem).2 rfl
  refine ⟨fun c hc => ?_, unbroken, closed⟩
  simp only [enclosed, List.mem_cons, List.mem_append, List.not_mem_nil, or_false] at hc
  rcases hc with rfl | hc | rfl
  · exact quote
  · exact (kept c hc).1
  · exact quote

theorem read_of_isPart {text : List Char} (h : IsPart text) :
    read holes text = (text.foldl (Draft.feed holes) {}).clause?.toList := by
  rw [read, Text.lowercase_of_own h.own, readFrom_unbroken holes [] h.unbroken, List.append_nil]
  cases (text.foldl (Draft.feed holes) {}).clause? <;> rfl

theorem isPart_printed {c : Clause} (h : c.WellFormed holes) : IsPart c.printed := by
  have dash : IsPart ['-'] := isPart_singleton (by decide) (by decide) (by decide)
  have dollar : IsPart ['$'] := isPart_singleton (by decide) (by decide) (by decide)
  have colon : IsPart [':'] := isPart_singleton (by decide) (by decide) (by decide)
  have excluded : IsPart (if c.excluded then ['-'] else []) := by
    split
    · exact dash
    · exact isPart_nil
  have exact' : IsPart (if c.exact then ['$'] else []) := by
    split
    · exact dollar
    · exact isPart_nil
  unfold Clause.WellFormed at h
  refine (excluded.append exact').append ?_
  split at h
  · next p text =>
    simp only [text]
    exact isPart_enclosed (Phrase.typed_wellFormed h).2
  · next space phrase tag =>
    obtain ⟨⟨-, -, chars⟩, phrased⟩ := h
    have spaced : IsPart (enclosed space ++ [':']) := (isPart_enclosed chars).append colon
    cases phrase with
    | none => simpa only [tag] using spaced
    | some p =>
      have whole := spaced.append (isPart_enclosed (Phrase.typed_wellFormed (phrased p rfl)).2)
      simpa only [tag, List.append_assoc, List.singleton_append] using whole

theorem clause?_printed {c : Clause} (h : c.WellFormed holes) :
    (c.printed.foldl (Draft.feed holes) {}).clause? = some c := by
  have modifiers : ((if c.excluded then ['-'] else []) ++ (if c.exact then ['$'] else [])).foldl
      (Draft.feed holes) {} = Draft.fresh false none c.excluded c.exact := by
    cases holes <;> cases c.excluded <;> cases c.exact <;> rfl
  obtain ⟨subject, excluded, exact⟩ := c
  rw [Clause.printed, List.foldl_append, modifiers]
  cases subject with
  | text p => exact Draft.clause?_feed_phrase h none excluded exact
  | tag space phrase =>
    obtain ⟨spaced, phrased⟩ := h
    have inScope := Draft.foldl_feed_space spaced excluded exact
    cases phrase with
    | none =>
      simp only [inScope]
      rfl
    | some p =>
      have split : enclosed space ++ ':' :: enclosed p.typed =
          (enclosed space ++ [':']) ++ enclosed p.typed := by simp
      simp only [split]
      rw [List.foldl_append, inScope]
      exact Draft.clause?_feed_phrase (phrased p rfl) (some space) excluded exact

theorem read_printed_clause {c : Clause} (h : c.WellFormed holes) : read holes c.printed = [c] := by
  rw [read_of_isPart (isPart_printed h), clause?_printed h]
  rfl

theorem read_gap {gap : List Char} (h : ∀ s ∈ gap, Text.isSeparator s = true) (rest : List Char) :
    read holes (gap ++ rest) = read holes rest := by
  induction gap with
  | nil => rfl
  | cons s gap ih =>
    have skipped := read_append_closed holes (a := []) (gap ++ rest) rfl (h s List.mem_cons_self)
    rw [List.nil_append] at skipped
    rw [List.cons_append, skipped, ih fun x hx => h x (List.mem_cons_of_mem s hx)]
    rfl

/-- What is printed is read back, whatever separators stand between the clauses. -/
theorem read_printed {gap : List Char} (some_gap : gap ≠ [])
    (separators : ∀ s ∈ gap, Text.isSeparator s = true) {clauses : List Clause}
    (h : ∀ c ∈ clauses, c.WellFormed holes) : read holes (printed gap clauses) = clauses := by
  induction clauses with
  | nil => rfl
  | cons c clauses ih =>
    have first := h c List.mem_cons_self
    have rest := ih fun x hx => h x (List.mem_cons_of_mem c hx)
    cases clauses with
    | nil => simpa [printed] using read_printed_clause first
    | cons c' clauses =>
      obtain ⟨s, gap', rfl⟩ := List.exists_cons_of_ne_nil some_gap
      have split : printed (s :: gap') (c :: c' :: clauses) =
          c.printed ++ s :: (gap' ++ printed (s :: gap') (c' :: clauses)) := by
        simp [printed, List.intercalate]
      rw [split, read_append_closed holes _ (isPart_printed first).closed
        (separators s List.mem_cons_self), read_printed_clause first,
        read_gap fun x hx => separators x (List.mem_cons_of_mem s hx), rest]
      rfl

/-- Reading gives the well-formed lists of clauses and no others, and each of them is read back from
its printed form. -/
theorem read_image (holes : Bool) :
    (∀ line, ∀ c ∈ read holes line, c.WellFormed holes) ∧
    ∀ gap clauses, gap ≠ [] → (∀ s ∈ gap, Text.isSeparator s = true) →
      (∀ c ∈ clauses, c.WellFormed holes) → read holes (printed gap clauses) = clauses :=
  ⟨wellFormed_read holes, fun _ _ some_gap separators h => read_printed some_gap separators h⟩

/-- An excluded, exact tag with marks in its namespace and its name, and a lone wildcard. -/
private def puzzling : List Clause :=
  [⟨.tag ['r', 'e', ':', '*'] (some ⟨[.lit ['a', ',', ' ', '-', 'b'], .one], by decide⟩),
      true, true⟩,
    ⟨.text ⟨[.one], by decide⟩, false, false⟩]

theorem read_image_puzzling : (∀ c ∈ puzzling, c.WellFormed true) ∧
    read true (printed [',', ' '] puzzling) = puzzling := by
  have wellFormed : ∀ c ∈ puzzling, c.WellFormed true := by
    have space : Namespace.WellFormed true ['r', 'e', ':', '*'] :=
      ⟨by decide, by decide +kernel, List.all_eq_true.mp (by decide +kernel)⟩
    have chars : ∀ c ∈ ['a', ',', ' ', '-', 'b'], isLiteralChar true c = true :=
      List.all_eq_true.mp (by decide +kernel)
    simp only [puzzling, List.forall_mem_cons, Clause.WellFormed, Phrase.WellFormed]
    simp [space, chars, Piece.Apart, Piece.isLit]
  have separators : ∀ s ∈ [',', ' '], Text.isSeparator s = true := List.all_eq_true.mp (by decide)
  exact ⟨wellFormed, (read_image true).2 _ _ (by decide) separators wellFormed⟩

end Query

end TagQuery
