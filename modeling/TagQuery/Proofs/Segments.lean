import Mathlib.Data.List.DropRight
import Mathlib.Data.List.Infix
import TagQuery.Proofs.Printing

/-! A second account of what a line says. It is cut at the separators outside quotes into parts,
each part at the colons outside quotes into segments, and each segment is read from its own
characters alone. Main statement: the reader, which goes through the line once and never back, finds
the same clauses. The invariant is on the draft within a segment: its places are those of the
characters behind the last open colon, and all that it keeps of the segments before them is a
namespace and the modifiers. -/
namespace TagQuery

def Phrase.Place.isChar : Phrase.Place → Bool
  | .char _ => true
  | _ => false

/-- Puts a piece in front of others; a literal becomes one with the literal that it meets. -/
def Piece.mergeBefore : Piece → List Piece → List Piece
  | .lit chars, .lit others :: pieces => .lit (chars ++ others) :: pieces
  | piece, pieces => piece :: pieces

namespace Query

/-- The characters of a text, each with whether the quotes before it are in pairs. -/
def withQuotes (text : List Char) : List (Char × Bool) :=
  text.zip (text.inits.map fun front => front.count '"' % 2 == 0)

/-- A text cut at the characters that pass the test and stand outside quotes. -/
def cutOutside (cuts : Char → Bool) (text : List Char) : List (List Char) :=
  ((withQuotes text).splitOnP fun x => x.2 && cuts x.1).map (·.map (·.1))

/-- The literal characters behind the last hole. -/
def openRun (places : List Phrase.Place) : List Phrase.Place :=
  places.rtakeWhile Phrase.Place.isChar

/-- Whether a dash is a modifier behind the text `front` of its segment, of which the places `left`
are left: outside quotes, where no literal is open or the open one ends in a space. -/
def dashModifies (front : List Char) (left : List Phrase.Place) : Bool :=
  front.count '"' % 2 == 0 &&
    ((openRun left).isEmpty || (openRun left).getLast? == some (.char ' '))

/-- The places of a segment that is given last character first. -/
def placesBack (holes : Bool) : List Char → List Phrase.Place
  | [] => []
  | c :: front =>
    let left := placesBack holes front
    if c == '"' || c == '$' || c == '-' && dashModifies front left then left
    else left ++ [placeOf holes c]

/-- The places of a segment: its characters without quotes, marks of exactness and modifier dashes,
each as itself or as the hole that it is read as. -/
def segmentPlaces (holes : Bool) (segment : List Char) : List Phrase.Place :=
  placesBack holes segment.reverse

/-- Whether one of the dashes of a segment is a modifier. -/
def hasModifier (holes : Bool) (segment : List Char) : Bool :=
  segment.inits.any fun front =>
    (front ++ ['-']).isPrefixOf segment && dashModifies front (segmentPlaces holes front)

/-- Puts a place in front of pieces; a character becomes one with the literal that it meets. -/
def joinPlace : Phrase.Place → List Piece → List Piece
  | .char c, .lit chars :: pieces => .lit (c :: chars) :: pieces
  | .char c, pieces => .lit [c] :: pieces
  | .one, pieces => .one :: pieces
  | .many, pieces => .many :: pieces

def segmentPhrase? (holes : Bool) (segment : List Char) : Option Phrase :=
  Phrase.ofPieces? ((segmentPlaces holes segment).foldr joinPlace [])

def spaceNamed (name : Phrase) : List Char :=
  Namespace.resolve name.typed

/-- The namespace that the last segment with a phrase stands for. -/
def segmentsSpace? (holes : Bool) (segments : List (List Char)) : Option (List Char) :=
  (segments.filterMap (segmentPhrase? holes)).getLast?.map spaceNamed

/-- The clause of a part: its last segment is the phrase, the segments before it the namespace. -/
def partClause? (holes : Bool) (part : List Char) : Option Clause :=
  let segments := cutOutside (· == ':') part
  let excluded := segments.any (hasModifier holes)
  let exact := part.contains '$'
  match segmentsSpace? holes segments.dropLast, segments.getLast?.bind (segmentPhrase? holes) with
  | some space, phrase => some ⟨.tag space phrase, excluded, exact⟩
  | none, some phrase => some ⟨.text phrase, excluded, exact⟩
  | none, none => none

def readParts (holes : Bool) (line : List Char) : List Clause :=
  (cutOutside Text.isSeparator (Text.lowercase line)).filterMap (partClause? holes)

/-- The same cuts, made from the front, where `quoted` says whether a quote is open there. -/
def cutFrom (cuts : Char → Bool) : Bool → List Char → List (List Char)
  | _, [] => [[]]
  | quoted, c :: rest =>
    if !quoted && cuts c then [] :: cutFrom cuts (quoted != (c == '"')) rest
    else (cutFrom cuts (quoted != (c == '"')) rest).modifyHead (c :: ·)

theorem even_quotes (front : List Char) :
    (front.count '"' % 2 == 0) = !quotedAfter false front := by
  rw [quotedAfter_eq]
  rcases Nat.mod_two_eq_zero_or_one (front.count '"') with even | odd
  · simp [even]
  · simp [odd]

theorem cutOutside_eq_cutFrom (cuts : Char → Bool) (text : List Char) :
    cutOutside cuts text = cutFrom cuts false text := by
  rw [cutOutside, withQuotes, funext even_quotes]
  generalize false = quoted
  induction text generalizing quoted with
  | nil => rfl
  | cons c rest ih =>
    have later : (rest.inits.map (c :: ·)).map (fun front => !quotedAfter quoted front) =
        rest.inits.map fun front => !quotedAfter (quoted != (c == '"')) front := by
      rw [List.map_map]
      rfl
    rw [List.inits_cons, List.map_cons, List.zip_cons_cons, later,
      List.splitOnP_cons_eq_if_modifyHead, cutFrom, ← ih, quotedAfter_nil]
    by_cases here : (!quoted && cuts c) = true
    · rw [if_pos here, if_pos here]
      rfl
    · rw [if_neg here, if_neg here]
      cases (rest.zip _).splitOnP _ <;> rfl

theorem exists_cutFrom_eq_cons (cuts : Char → Bool) (quoted : Bool) (text : List Char) :
    ∃ first others, cutFrom cuts quoted text = first :: others := by
  induction text generalizing quoted with
  | nil => exact ⟨[], [], rfl⟩
  | cons c rest ih =>
    obtain ⟨first, others, cut⟩ := ih (quoted != (c == '"'))
    rw [cutFrom, cut]
    split
    · exact ⟨[], first :: others, rfl⟩
    · exact ⟨c :: first, others, rfl⟩

theorem mem_of_mem_cutFrom {cuts : Char → Bool} {quoted : Bool} {text part : List Char}
    (hp : part ∈ cutFrom cuts quoted text) {c : Char} (hc : c ∈ part) : c ∈ text := by
  induction text generalizing quoted part with
  | nil =>
    rw [cutFrom, List.mem_singleton] at hp
    rw [hp] at hc
    exact hc
  | cons x rest ih =>
    obtain ⟨first, others, cut⟩ := exists_cutFrom_eq_cons cuts (quoted != (x == '"')) rest
    have inside : ∀ part ∈ first :: others, c ∈ part → c ∈ rest := by
      rw [← cut]
      exact fun part hp hc => ih hp hc
    rw [cutFrom, cut] at hp
    split at hp
    · rcases List.mem_cons.mp hp with rfl | hp
      · cases hc
      · exact List.mem_cons_of_mem x (inside part hp hc)
    · rcases List.mem_cons.mp hp with rfl | hp
      · rcases List.mem_cons.mp hc with rfl | hc
        · exact List.mem_cons_self
        · exact List.mem_cons_of_mem x (inside first List.mem_cons_self hc)
      · exact List.mem_cons_of_mem x (inside part (List.mem_cons_of_mem first hp) hc)

theorem filterMap_cons_toList {α β : Type} (f : α → Option β) (x : α) (xs : List α) :
    (x :: xs).filterMap f = (f x).toList ++ xs.filterMap f := by
  rw [List.filterMap_cons]
  cases f x <;> rfl

/-- The reader ends the clause at hand with the first part, and reads each other part afresh. -/
theorem readFrom_eq_cut {holes : Bool} {d : Draft} {text first : List Char}
    {others : List (List Char)} (cut : cutFrom Text.isSeparator d.quoted text = first :: others) :
    readFrom holes d [] text = (first.foldl (Draft.feed holes) d).clause?.toList ++
      others.filterMap fun part => (part.foldl (Draft.feed holes) {}).clause? := by
  induction text generalizing d first others with
  | nil =>
    obtain ⟨rfl, rfl⟩ := List.cons.inj cut
    simp only [readFrom, List.foldl_nil, List.filterMap_nil, List.append_nil]
    cases d.clause? <;> rfl
  | cons c rest ih =>
    obtain ⟨first', others', cut'⟩ :=
      exists_cutFrom_eq_cons Text.isSeparator (d.quoted != (c == '"')) rest
    have test : (!d.quoted && Text.isSeparator c) = d.endsAt c := rfl
    rw [cutFrom, cut', test] at cut
    rw [readFrom]
    by_cases ends : d.endsAt c = true
    · obtain ⟨closed, separator⟩ := Bool.and_eq_true_iff.mp ends
      rw [if_pos ends] at cut ⊢
      obtain ⟨rfl, rfl⟩ := List.cons.inj cut
      have afresh : (d.quoted != (c == '"')) = Draft.quoted {} := by
        rw [quote_ne_of_isSeparator separator, Bool.not_eq_eq_eq_not.mp closed]
        rfl
      rw [afresh] at cut'
      rw [readFrom_done, ih cut', filterMap_cons_toList, List.foldl_nil]
      cases d.clause? <;> rfl
    · rw [if_neg ends] at cut ⊢
      obtain ⟨rfl, rfl⟩ := List.cons.inj cut
      rw [List.foldl_cons]
      apply ih
      rw [Draft.feed_quoted]
      exact cut'

theorem segmentPlaces_concat (holes : Bool) (front : List Char) (c : Char) :
    segmentPlaces holes (front ++ [c]) =
      if c == '"' || c == '$' || c == '-' && dashModifies front (segmentPlaces holes front) then
        segmentPlaces holes front
      else segmentPlaces holes front ++ [placeOf holes c] := by
  have turned : dashModifies front.reverse = dashModifies front := by
    funext left
    rw [dashModifies, dashModifies, List.count_reverse]
  rw [segmentPlaces, List.reverse_append, List.reverse_singleton, List.singleton_append, placesBack,
    turned]
  rfl

theorem hasModifier_iff {holes : Bool} {segment : List Char} :
    hasModifier holes segment = true ↔ ∃ front, front ++ ['-'] <+: segment ∧
      dashModifies front (segmentPlaces holes front) = true := by
  simp only [hasModifier, List.any_eq_true, List.mem_inits, Bool.and_eq_true,
    List.isPrefixOf_iff_prefix]
  constructor
  · rintro ⟨front, -, found⟩
    exact ⟨front, found⟩
  · rintro ⟨front, within, modifies⟩
    exact ⟨front, (List.prefix_append front ['-']).trans within, within, modifies⟩

theorem hasModifier_concat (holes : Bool) (front : List Char) (c : Char) :
    hasModifier holes (front ++ [c]) = (hasModifier holes front ||
      c == '-' && dashModifies front (segmentPlaces holes front)) := by
  rw [Bool.eq_iff_iff, Bool.or_eq_true, Bool.and_eq_true, hasModifier_iff, hasModifier_iff,
    beq_iff_eq]
  constructor
  · rintro ⟨before, within, modifies⟩
    rcases List.prefix_concat_iff.mp within with whole | within
    · obtain ⟨rfl, dash⟩ := List.append_inj' whole rfl
      exact .inr ⟨(List.cons.inj dash).1.symm, modifies⟩
    · exact .inl ⟨before, within, modifies⟩
  · rintro (⟨before, within, modifies⟩ | ⟨rfl, modifies⟩)
    · exact ⟨before, within.trans (List.prefix_append front [c]), modifies⟩
    · exact ⟨front, List.prefix_rfl, modifies⟩

/-- A literal that is not empty is put in front as one piece, or character by character. -/
theorem foldr_joinPlace_lit {chars : List Char} (nonempty : chars ≠ []) (pieces : List Piece) :
    (chars.map Phrase.Place.char).foldr joinPlace pieces = Piece.mergeBefore (.lit chars) pieces := by
  induction chars with
  | nil => exact absurd rfl nonempty
  | cons c chars ih =>
    rw [List.map_cons, List.foldr_cons]
    cases chars with
    | nil =>
      cases pieces with
      | nil => rfl
      | cons p pieces => cases p <;> rfl
    | cons c' chars =>
      rw [ih (List.cons_ne_nil c' chars)]
      cases pieces with
      | nil => rfl
      | cons p pieces => cases p <;> rfl

theorem mergeBefore_of_apart {p : Piece} {pieces : List Piece}
    (apart : ∀ q ∈ pieces.head?, p.Apart q) : p.mergeBefore pieces = p :: pieces := by
  fun_cases Piece.mergeBefore p pieces with
  | case1 chars others pieces => exact absurd ⟨rfl, rfl⟩ (apart _ rfl)
  | case2 => rfl

theorem foldr_joinPlace_places {pieces : List Piece}
    (nonempty : ∀ chars, .lit chars ∈ pieces → chars ≠ []) (chain : pieces.IsChain Piece.Apart) :
    (pieces.flatMap Phrase.placesOf).foldr joinPlace [] = pieces := by
  induction pieces with
  | nil => rfl
  | cons p pieces ih =>
    obtain ⟨next, chain'⟩ := List.isChain_cons.mp chain
    rw [List.flatMap_cons, List.foldr_append,
      ih (fun chars hc => nonempty chars (List.mem_cons_of_mem p hc)) chain']
    cases p with
    | lit chars =>
      exact (foldr_joinPlace_lit (nonempty chars List.mem_cons_self) pieces).trans
        (mergeBefore_of_apart next)
    | one | many => rfl

namespace Draft

variable {holes : Bool} {d : Draft}

theorem Sound.closed_eq (h : d.Sound holes) :
    d.closed.reverse = d.places.foldr joinPlace [] := by
  refine (foldr_joinPlace_places (fun chars hc => ?_) h.reverse_chain).symm
  exact (h.closed_literals (List.mem_reverse.mp hc)).1

theorem Sound.openRun_places (h : d.Sound holes) :
    openRun d.places = d.run.reverse.map .char := by
  -- what stands before the run, if anything, is a hole
  have closed : (d.pieces.reverse.flatMap Phrase.placesOf).reverse.takeWhile
      Phrase.Place.isChar = [] := by
    cases first : d.pieces with
    | nil => rfl
    | cons p pieces =>
      have hole := h.last p (by rw [first]; rfl)
      rw [List.reverse_cons, List.flatMap_append, List.reverse_append]
      cases p with
      | lit chars => cases hole
      | one | many => rfl
  rw [openRun, List.rtakeWhile, places_eq, List.reverse_append,
    List.takeWhile_append_of_pos (by simp [Phrase.Place.isChar]), closed, List.append_nil,
    List.reverse_reverse]

theorem Sound.opensWord_eq (h : d.Sound holes) :
    d.opensWord =
      ((openRun d.places).isEmpty || (openRun d.places).getLast? == some (.char ' ')) := by
  rw [h.openRun_places, opensWord]
  cases d.run with
  | nil => rfl
  | cons c run =>
    rw [Bool.eq_iff_iff]
    simp

@[simp] theorem scope_excluded (d : Draft) : d.scope.excluded = d.excluded := by
  unfold scope
  split <;> rfl

@[simp] theorem scope_exact (d : Draft) : d.scope.exact = d.exact := by
  unfold scope
  split <;> rfl

/-- What a character does where it stands: it is one of the four marks, or a place of the phrase. -/
theorem feed_cases (holes : Bool) (d : Draft) (c : Char) :
    c = '"' ∧ d.feed holes c = { d with quoted := !d.quoted } ∨
      c = '$' ∧ d.feed holes c = { d with exact := true } ∨
      c = '-' ∧ (!d.quoted && d.opensWord) = true ∧ d.feed holes c = { d with excluded := true } ∨
      c = ':' ∧ d.quoted = false ∧ d.feed holes c = d.scope ∨
      (c ≠ '"' ∧ c ≠ '$' ∧ (c == '-' && (!d.quoted && d.opensWord)) = false) ∧
        (d.feed holes c).places = d.places ++ [placeOf holes c] ∧
        SameScope d (d.feed holes c) := by
  by_cases quote : c = '"'
  · exact .inl ⟨quote, by simp [feed, quote]⟩
  · by_cases dollar : c = '$'
    · exact .inr (.inl ⟨dollar, by simp [feed, dollar]⟩)
    · by_cases dash : c = '-' ∧ d.quoted = false ∧ d.opensWord = true
      · exact .inr (.inr (.inl ⟨dash.1, by simp [dash], by simp [feed, dash]⟩))
      · by_cases colon : c = ':' ∧ d.quoted = false
        · exact .inr (.inr (.inr (.inl ⟨colon.1, colon.2, by simp [feed, colon]⟩)))
        · refine .inr (.inr (.inr (.inr ⟨⟨quote, dollar, ?_⟩, feed_place quote dollar dash colon⟩)))
          apply Bool.eq_false_iff.mpr
          intro marks
          simp only [Bool.and_eq_true, beq_iff_eq, Bool.not_eq_true'] at marks
          exact dash marks

theorem feed_inside {c : Char} (inside : ¬ (c = ':' ∧ d.quoted = false)) :
    ((d.feed holes c).places =
      if c == '"' || c == '$' || c == '-' && (!d.quoted && d.opensWord) then d.places
      else d.places ++ [placeOf holes c]) ∧
      (d.feed holes c).space = d.space ∧
      (d.feed holes c).excluded = (d.excluded || c == '-' && (!d.quoted && d.opensWord)) := by
  rcases feed_cases holes d c with ⟨rfl, fed⟩ | ⟨rfl, fed⟩ | ⟨rfl, modifies, fed⟩ |
    ⟨rfl, outside, -⟩ | ⟨⟨quote, dollar, dash⟩, places, same⟩
  · rw [fed]
    exact ⟨rfl, rfl, (Bool.or_false _).symm⟩
  · rw [fed]
    exact ⟨rfl, rfl, (Bool.or_false _).symm⟩
  · rw [fed, modifies]
    exact ⟨rfl, rfl, (Bool.or_true _).symm⟩
  · exact absurd ⟨rfl, outside⟩ inside
  · rw [places, same.space, same.excluded, beq_false_of_ne quote, beq_false_of_ne dollar, dash]
    exact ⟨rfl, rfl, (Bool.or_false _).symm⟩

theorem exact_feed (holes : Bool) (d : Draft) (c : Char) :
    (d.feed holes c).exact = (d.exact || c == '$') := by
  rcases feed_cases holes d c with ⟨rfl, fed⟩ | ⟨rfl, fed⟩ | ⟨rfl, -, fed⟩ | ⟨rfl, -, fed⟩ |
    ⟨⟨-, dollar, -⟩, -, same⟩
  · simp [fed]
  · simp [fed]
  · simp [fed]
  · simp [fed]
  · simp [same.exact, dollar]

theorem exact_foldl_feed (holes : Bool) (d : Draft) (text : List Char) :
    (text.foldl (feed holes) d).exact = (d.exact || text.contains '$') := by
  induction text generalizing d with
  | nil => simp
  | cons c text ih =>
    rw [List.foldl_cons, ih, exact_feed, List.contains_cons, Bool.or_assoc, Bool.beq_comm]

/-- The draft after the characters `front` of a segment. Of the segments before it there are left a
namespace and whether one of them excludes the clause. -/
structure Follows (holes : Bool) (space : Option (List Char)) (excluded : Bool) (front : List Char)
    (d : Draft) : Prop where
  sound : d.Sound holes
  quoted : d.quoted = quotedAfter false front
  places : d.places = segmentPlaces holes front
  space : d.space = space
  excluded : d.excluded = (excluded || hasModifier holes front)

variable {space : Option (List Char)} {excluded : Bool} {front : List Char}

theorem Follows.phrase? (h : d.Follows holes space excluded front) :
    d.phrase? = segmentPhrase? holes front := by
  rw [Draft.phrase?, h.sound.closed_eq, h.places, segmentPhrase?]

theorem Follows.dash (h : d.Follows holes space excluded front) :
    (!d.quoted && d.opensWord) = dashModifies front (segmentPlaces holes front) := by
  rw [dashModifies, even_quotes, ← h.quoted, h.sound.opensWord_eq, h.places]

/-- Within a segment every character keeps the invariant. -/
theorem Follows.feed (h : d.Follows holes space excluded front) {c : Char}
    (own : Text.lowerChar c = [c]) (inside : ¬ (c = ':' ∧ d.quoted = false)) :
    (d.feed holes c).Follows holes space excluded (front ++ [c]) where
  sound := h.sound.feed own
  quoted := by
    rw [feed_quoted, h.quoted, quotedAfter_append]
    rfl
  places := by rw [(feed_inside inside).1, segmentPlaces_concat, h.dash, h.places]
  space := by rw [(feed_inside inside).2.1, h.space]
  excluded := by
    rw [(feed_inside inside).2.2, h.dash, h.excluded, hasModifier_concat, Bool.or_assoc]

/-- A colon outside quotes starts a segment, after a name if there was one. -/
theorem Follows.colon (h : d.Follows holes space excluded front) (outside : d.quoted = false) :
    (d.feed holes ':').Follows holes (((segmentPhrase? holes front).map spaceNamed).or space)
      (excluded || hasModifier holes front) [] := by
  have fed : d.feed holes ':' = d.scope := by
    cases holes <;> simp [Draft.feed, outside]
  have sound : d.scope.Sound holes := by
    rw [← fed]
    exact h.sound.feed (by decide +kernel)
  rw [fed]
  refine ⟨sound, by rw [scope_quoted, outside]; rfl, ?_, ?_, ?_⟩
  · unfold scope
    split
    · rfl
    · next nothing =>
      cases closed : d.closed.reverse with
      | nil =>
        rw [Draft.places, closed]
        rfl
      | cons p pieces =>
        rw [Draft.phrase?, closed] at nothing
        cases nothing
  · rw [← h.phrase?, ← h.space]
    unfold scope
    cases d.phrase? <;> rfl
  · rw [scope_excluded, h.excluded]
    exact (Bool.or_false _).symm

end Draft

theorem segmentsSpace?_cons (holes : Bool) (first : List Char) (others : List (List Char)) :
    segmentsSpace? holes (first :: others) =
      (segmentsSpace? holes others).or ((segmentPhrase? holes first).map spaceNamed) := by
  rw [segmentsSpace?, segmentsSpace?, filterMap_cons_toList, List.getLast?_append]
  cases (others.filterMap (segmentPhrase? holes)).getLast? with
  | none => cases segmentPhrase? holes first <;> rfl
  | some name => rfl

/-- The draft after whole segments, read behind those that left the namespace and the modifier. -/
structure Draft.Gathers (holes : Bool) (space : Option (List Char)) (excluded : Bool)
    (segments : List (List Char)) (d : Draft) : Prop where
  space : d.space = (segmentsSpace? holes segments.dropLast).or space
  phrase : d.phrase? = segments.getLast?.bind (segmentPhrase? holes)
  excluded : d.excluded = (excluded || segments.any (hasModifier holes))

/-- The segment before a colon is one of those that are left behind. -/
theorem Draft.Gathers.cons {holes : Bool} {d : Draft} {space : Option (List Char)} {excluded : Bool}
    {front first : List Char} {others : List (List Char)}
    (h : d.Gathers holes (((segmentPhrase? holes front).map spaceNamed).or space)
      (excluded || hasModifier holes front) (first :: others)) :
    d.Gathers holes space excluded (front :: first :: others) where
  space := by rw [List.dropLast_cons_cons, segmentsSpace?_cons, Option.or_assoc, h.space]
  phrase := by rw [List.getLast?_cons_cons, h.phrase]
  excluded := by rw [List.any_cons, ← Bool.or_assoc, h.excluded]

/-- The reader goes on from within a segment to the end of the part. The segment at hand is what was
read of it and what stands in the rest before the first open colon. -/
theorem gathers_foldl_feed {holes : Bool} {d : Draft} {space : Option (List Char)}
    {excluded : Bool} {front rest first : List Char} {others : List (List Char)}
    (h : d.Follows holes space excluded front) (own : ∀ c ∈ rest, Text.lowerChar c = [c])
    (cut : cutFrom (· == ':') d.quoted rest = first :: others) :
    (rest.foldl (Draft.feed holes) d).Gathers holes space excluded ((front ++ first) :: others) := by
  induction rest generalizing d space excluded front first others with
  | nil =>
    obtain ⟨rfl, rfl⟩ := List.cons.inj cut
    rw [List.append_nil]
    exact ⟨h.space, h.phrase?, by simp [h.excluded]⟩
  | cons c rest ih =>
    have own' : ∀ x ∈ rest, Text.lowerChar x = [x] := fun x hx => own x (List.mem_cons_of_mem c hx)
    obtain ⟨first', others', cut'⟩ :=
      exists_cutFrom_eq_cons (· == ':') (d.quoted != (c == '"')) rest
    rw [cutFrom, cut'] at cut
    rw [← Draft.feed_quoted holes] at cut'
    rw [List.foldl_cons]
    by_cases colon : c = ':' ∧ d.quoted = false
    · obtain ⟨rfl, outside⟩ := colon
      rw [if_pos (by simp [outside])] at cut
      obtain ⟨rfl, rfl⟩ := List.cons.inj cut
      rw [List.append_nil]
      -- the invariant starts anew, with nothing read of the next segment
      exact (ih (h.colon outside) own' cut').cons
    · rw [if_neg fun both => colon (by simpa [and_comm] using both)] at cut
      obtain ⟨rfl, rfl⟩ := List.cons.inj cut
      have step := h.feed (own c List.mem_cons_self) colon
      have read := ih step own' cut'
      rw [List.append_assoc] at read
      exact read

theorem clause?_foldl_feed (holes : Bool) {part : List Char}
    (own : ∀ c ∈ part, Text.lowerChar c = [c]) :
    (part.foldl (Draft.feed holes) {}).clause? = partClause? holes part := by
  have start : Draft.Follows holes none false [] {} :=
    ⟨Draft.sound_empty holes, rfl, rfl, rfl, rfl⟩
  obtain ⟨first, others, cut⟩ := exists_cutFrom_eq_cons (· == ':') false part
  obtain ⟨space, phrase, excluded⟩ := gathers_foldl_feed start own cut
  rw [List.nil_append, ← cut, ← cutOutside_eq_cutFrom] at space phrase excluded
  rw [Draft.clause?, space, phrase, excluded, Draft.exact_foldl_feed, Option.or_none, Bool.false_or,
    Bool.false_or]
  rfl

example : partClause? true "f:\"big b\"-*-x$".toList =
    some ⟨.tag "female".toList (Phrase.ofPieces? [.lit "big b-".toList, .many, .lit ['x']]),
      true, true⟩ := by
  decide +kernel

/-- Reading a line in one pass gives what its parts and segments say, each read on its own. -/
theorem read_eq_readParts (holes : Bool) (line : List Char) :
    read holes line = readParts holes line := by
  obtain ⟨first, others, cut⟩ :=
    exists_cutFrom_eq_cons Text.isSeparator false (Text.lowercase line)
  have own : ∀ part ∈ first :: others, ∀ c ∈ part, Text.lowerChar c = [c] := by
    rw [← cut]
    exact fun part hp c hc => Text.own_of_mem_lowercase (mem_of_mem_cutFrom hp hc)
  rw [read, readFrom_eq_cut cut, readParts, cutOutside_eq_cutFrom, cut, filterMap_cons_toList,
    clause?_foldl_feed holes (own first List.mem_cons_self)]
  congr 1
  exact List.filterMap_congr fun part hp =>
    clause?_foldl_feed holes (own part (List.mem_cons_of_mem first hp))

end Query

end TagQuery
