import Mathlib.Algebra.Group.Nat.Even
import TagQuery.Proofs.Lowercase
import TagQuery.Query

/-! An open separator, one outside quotes, ends a clause and leaves nothing of it behind. So the
line is read part by part, and within a part the reader is a plain fold over its characters. -/
namespace TagQuery.Query

/-- Whether a quote is open after a text, given whether one was open before it. -/
def quotedAfter (quoted : Bool) (text : List Char) : Bool :=
  text.foldl (fun q c => q != (c == '"')) quoted

@[simp] theorem quotedAfter_nil (quoted : Bool) : quotedAfter quoted [] = quoted := rfl

@[simp] theorem quotedAfter_cons (quoted : Bool) (c : Char) (text : List Char) :
    quotedAfter quoted (c :: text) = quotedAfter (quoted != (c == '"')) text := rfl

@[simp] theorem quotedAfter_append (quoted : Bool) (a b : List Char) :
    quotedAfter quoted (a ++ b) = quotedAfter (quotedAfter quoted a) b :=
  List.foldl_append

/-- Every second quote closes the one before it. -/
theorem quotedAfter_eq (quoted : Bool) (text : List Char) :
    quotedAfter quoted text = (quoted != (text.count '"' % 2 == 1)) := by
  induction text generalizing quoted with
  | nil => simp
  | cons c text ih =>
    rw [quotedAfter_cons, ih, List.count_cons]
    cases c == '"' with
    | false => simp
    | true =>
      have parity := Nat.mod_two_eq_zero_or_one (text.count '"')
      rcases parity with even | odd
      · have next : (text.count '"' + 1) % 2 = 1 := by omega
        simp [even, next]
      · have next : (text.count '"' + 1) % 2 = 0 := by omega
        simp [odd, next]

theorem quotedAfter_of_even {text : List Char} (h : Even (text.count '"')) :
    quotedAfter false text = false := by
  simp [quotedAfter_eq, Nat.even_iff.mp h]

theorem quotedAfter_lowercase (quoted : Bool) (text : List Char) :
    quotedAfter quoted (Text.lowercase text) = quotedAfter quoted text := by
  rw [quotedAfter_eq, quotedAfter_eq, Text.count_lowercase (by decide)]

theorem quote_ne_of_isSeparator {s : Char} (h : Text.isSeparator s = true) :
    (s == '"') = false := by
  apply Bool.eq_false_iff.mpr
  intro same
  rw [beq_iff_eq.mp same] at h
  exact absurd h (by decide)

namespace Draft

@[simp] theorem scope_quoted (d : Draft) : d.scope.quoted = d.quoted := by
  unfold scope
  split <;> rfl

@[simp] theorem feed_quoted (holes : Bool) (d : Draft) (c : Char) :
    (d.feed holes c).quoted = (d.quoted != (c == '"')) := by
  fun_cases feed holes d c with
  | case1 quote => simp [quote]
  | case2 notQuote | case3 notQuote => simp [hole, notQuote]
  | case4 notQuote | case5 notQuote | case6 notQuote | case7 notQuote => simp [notQuote]

end Draft

/-- The clauses before the one being read only stand in front of the result. -/
theorem readFrom_done (holes : Bool) (d : Draft) (done : List Clause) (text : List Char) :
    readFrom holes d done text = done.reverse ++ readFrom holes d [] text := by
  induction text generalizing d done with
  | nil => simp [readFrom]
  | cons c text ih =>
    simp only [readFrom]
    split
    · rw [ih {} (d.clause?.toList ++ done), ih {} (d.clause?.toList ++ [])]
      simp
    · exact ih (d.feed holes c) done

/-- After an open separator the reader starts afresh. -/
theorem readFrom_append_separator (holes : Bool) {d : Draft} (done : List Clause) {a : List Char}
    {s : Char} (b : List Char) (ha : quotedAfter d.quoted a = false)
    (hs : Text.isSeparator s = true) :
    readFrom holes d done (a ++ s :: b) = readFrom holes d done a ++ readFrom holes {} [] b := by
  induction a generalizing d done with
  | nil =>
    have ends : d.endsAt s = true := by
      rw [quotedAfter_nil] at ha
      simp [Draft.endsAt, ha, hs]
    simp only [List.nil_append, readFrom, if_pos ends]
    exact readFrom_done holes {} (d.clause?.toList ++ done) b
  | cons c a ih =>
    simp only [List.cons_append, readFrom]
    split
    · next ends =>
      -- the separator stands outside quotes and opens none
      simp only [Draft.endsAt, Bool.and_eq_true, Bool.not_eq_true'] at ends
      rw [quotedAfter_cons, ends.1, quote_ne_of_isSeparator ends.2] at ha
      exact ih (d.clause?.toList ++ done) ha
    · refine ih done ?_
      rw [Draft.feed_quoted]
      exact ha

/-- Reading distributes over a separator behind a text that leaves no quote open. -/
theorem read_append_closed (holes : Bool) {a : List Char} {s : Char} (b : List Char)
    (ha : quotedAfter false a = false) (hs : Text.isSeparator s = true) :
    read holes (a ++ s :: b) = read holes a ++ read holes b := by
  unfold read
  rw [Text.lowercase_append_separator hs]
  apply readFrom_append_separator
  · rw [quotedAfter_lowercase]
    exact ha
  · exact hs

/-- Reading is a homomorphism over separators: what stands before one, with its quotes in pairs, and
what stands after it are read each on its own. -/
theorem read_append_separator (holes : Bool) {a : List Char} {s : Char} (b : List Char)
    (ha : Even (a.count '"')) (hs : Text.isSeparator s = true) :
    read holes (a ++ s :: b) = read holes a ++ read holes b :=
  read_append_closed holes b (quotedAfter_of_even ha) hs

theorem read_append_separator_sigma :
    Even (['-', '"', 'a', ' ', 'B', '"', 'Α', 'Σ'].count '"') ∧
      Text.isSeparator (Char.ofNat 0x3000) = true ∧
      read true (['-', '"', 'a', ' ', 'B', '"', 'Α', 'Σ'] ++ Char.ofNat 0x3000 :: ['Α', '*']) =
        read true ['-', '"', 'a', ' ', 'B', '"', 'Α', 'Σ'] ++ read true ['Α', '*'] :=
  ⟨by decide, by decide, read_append_separator true ['Α', '*'] (by decide) (by decide)⟩

/-- No separator of the text stands outside quotes. -/
def Unbroken (quoted : Bool) (text : List Char) : Prop :=
  ∀ front s back, text = front ++ s :: back → Text.isSeparator s = true →
    quotedAfter quoted front = true

@[simp] theorem unbroken_nil (quoted : Bool) : Unbroken quoted [] := by
  intro front s back split
  simp at split

@[simp] theorem unbroken_cons {quoted : Bool} {c : Char} {text : List Char} :
    Unbroken quoted (c :: text) ↔ (Text.isSeparator c = true → quoted = true) ∧
      Unbroken (quoted != (c == '"')) text := by
  constructor
  · intro h
    refine ⟨h [] c text rfl, fun front s back split => ?_⟩
    exact h (c :: front) s back (by rw [split, List.cons_append])
  · rintro ⟨first, rest⟩ front s back split hs
    cases front with
    | nil =>
      obtain ⟨rfl, -⟩ := List.cons.inj split
      exact first hs
    | cons c' front =>
      obtain ⟨rfl, split'⟩ := List.cons.inj split
      exact rest front s back split' hs

@[simp] theorem unbroken_append {quoted : Bool} {a b : List Char} :
    Unbroken quoted (a ++ b) ↔ Unbroken quoted a ∧ Unbroken (quotedAfter quoted a) b := by
  induction a generalizing quoted with
  | nil => simp
  | cons c a ih => simp [ih, and_assoc]

theorem Unbroken.not_endsAt {d : Draft} {c : Char} {text : List Char}
    (h : Unbroken d.quoted (c :: text)) : ¬ d.endsAt c = true := by
  intro ends
  simp only [Draft.endsAt, Bool.and_eq_true, Bool.not_eq_true'] at ends
  have quoted := (unbroken_cons.mp h).1 ends.2
  rw [ends.1] at quoted
  cases quoted

theorem Unbroken.lowercase {text : List Char} (h : Unbroken false text) :
    Unbroken false (Text.lowercase text) := by
  intro front s back split hs
  obtain ⟨front', back', whole, marks⟩ :=
    Text.lowercase_eq_append_cons split (Text.isMark_of_isSeparator hs)
  have quote : Text.isMark '"' = true := by decide
  have counts : front'.count '"' = front.count '"' := by
    rw [← List.count_filter quote, marks, List.count_filter quote]
  have inside := h front' s back' whole hs
  rw [quotedAfter_eq, counts] at inside
  rw [quotedAfter_eq]
  exact inside

/-- A text without open separators is one clause at most, found by feeding all its characters. -/
theorem readFrom_unbroken (holes : Bool) {d : Draft} (done : List Clause) {text : List Char}
    (h : Unbroken d.quoted text) :
    readFrom holes d done text =
      ((text.foldl (Draft.feed holes) d).clause?.toList ++ done).reverse := by
  induction text generalizing d with
  | nil => rfl
  | cons c text ih =>
    rw [readFrom, if_neg h.not_endsAt, List.foldl_cons]
    apply ih
    rw [Draft.feed_quoted]
    exact (unbroken_cons.mp h).2

theorem read_unbroken (holes : Bool) {line : List Char} (h : Unbroken false line) :
    read holes line =
      ((Text.lowercase line).foldl (Draft.feed holes) {}).clause?.toList := by
  rw [read, readFrom_unbroken holes [] h.lowercase, List.append_nil]
  cases ((Text.lowercase line).foldl (Draft.feed holes) {}).clause? <;> rfl

/-- A text that is more than one part is cut at its first open separator. -/
theorem unbroken_or_cut (quoted : Bool) (text : List Char) :
    Unbroken quoted text ∨ ∃ front s rest, text = front ++ s :: rest ∧ Unbroken quoted front ∧
      quotedAfter quoted front = false ∧ Text.isSeparator s = true := by
  induction text generalizing quoted with
  | nil => exact .inl (unbroken_nil quoted)
  | cons c text ih =>
    by_cases ends : Text.isSeparator c = true ∧ quoted = false
    · exact .inr ⟨[], c, text, rfl, unbroken_nil quoted, ends.2, ends.1⟩
    · have inside : Text.isSeparator c = true → quoted = true := by
        intro separator
        exact Bool.of_not_eq_false fun outside => ends ⟨separator, outside⟩
      rcases ih (quoted != (c == '"')) with whole | ⟨front, s, rest, cut, whole, closed, separator⟩
      · exact .inl (unbroken_cons.mpr ⟨inside, whole⟩)
      · refine .inr ⟨c :: front, s, rest, ?_, unbroken_cons.mpr ⟨inside, whole⟩, closed, separator⟩
        rw [cut, List.cons_append]

/-- What holds of lines of one part, and of a line if it holds of what is behind its first part,
holds of every line. -/
@[elab_as_elim]
theorem parts_induction {motive : List Char → Prop}
    (one : ∀ line, Unbroken false line → motive line)
    (more : ∀ front s rest, Unbroken false front → quotedAfter false front = false →
      Text.isSeparator s = true → motive rest → motive (front ++ s :: rest))
    (line : List Char) : motive line := by
  rcases unbroken_or_cut false line with whole | ⟨front, s, rest, cut, whole, closed, separator⟩
  · exact one line whole
  · have shorter : rest.length < line.length := by
      rw [cut, List.length_append, List.length_cons]
      omega
    rw [cut]
    exact more front s rest whole closed separator (parts_induction one more rest)
termination_by line.length

namespace Draft

def modified (d : Draft) (excluded exact : Bool) : Draft :=
  { d with excluded := d.excluded || excluded, exact := d.exact || exact }

variable {excluded exact : Bool}

theorem scope_modified (d : Draft) :
    (d.modified excluded exact).scope = d.scope.modified excluded exact := by
  have same : (d.modified excluded exact).phrase? = d.phrase? := rfl
  unfold scope
  rw [same]
  cases d.phrase? <;> rfl

/-- What is read after a modifier is read as without it: no character looks at the modifiers. -/
theorem feed_modified (holes : Bool) (d : Draft) (c : Char) :
    (d.modified excluded exact).feed holes c = (d.feed holes c).modified excluded exact := by
  have word : (d.modified excluded exact).opensWord = d.opensWord := rfl
  have quoted : (d.modified excluded exact).quoted = d.quoted := rfl
  unfold feed
  rw [word, quoted, scope_modified]
  split_ifs <;> simp [modified, hole, closed]

theorem foldl_feed_modified (holes : Bool) (d : Draft) (text : List Char) :
    text.foldl (feed holes) (d.modified excluded exact) =
      (text.foldl (feed holes) d).modified excluded exact := by
  induction text generalizing d with
  | nil => rfl
  | cons c text ih => rw [List.foldl_cons, List.foldl_cons, feed_modified, ih]

theorem clause?_modified (d : Draft) :
    (d.modified excluded exact).clause? = d.clause?.map fun c =>
      { c with excluded := c.excluded || excluded, exact := c.exact || exact } := by
  have phrase : (d.modified excluded exact).phrase? = d.phrase? := rfl
  have space : (d.modified excluded exact).space = d.space := rfl
  unfold clause?
  rw [phrase, space]
  cases d.space <;> cases d.phrase? <;> rfl

end Draft

/-- A modifier in front of a line of one part is added to its clause and changes nothing else. -/
theorem read_modifier (holes : Bool) {m : Char} {excluded exact : Bool}
    (fed : Draft.feed holes {} m = Draft.modified {} excluded exact)
    (barrier : Text.isBarrier m = true) (mark : Text.isMark m = true)
    (plain : Text.isSeparator m = false ∧ (m == '"') = false) {line : List Char}
    (h : Unbroken false line) :
    read holes (m :: line) = (read holes line).map fun c =>
      { c with excluded := c.excluded || excluded, exact := c.exact || exact } := by
  have lowered : Text.lowercase (m :: line) = m :: Text.lowercase line :=
    Text.lowercase_append_barrier barrier mark [] line
  have whole : Unbroken (Draft.quoted {}) (m :: Text.lowercase line) := by
    refine unbroken_cons.mpr ⟨by simp [plain.1], ?_⟩
    rw [plain.2]
    exact h.lowercase
  unfold read
  rw [lowered, readFrom_unbroken holes [] whole, readFrom_unbroken holes [] h.lowercase,
    List.foldl_cons, fed, Draft.foldl_feed_modified, Draft.clause?_modified]
  cases ((Text.lowercase line).foldl (Draft.feed holes) {}).clause? <;> rfl

/-- A dash in front of a line of one part excludes its clause and changes nothing else. -/
theorem read_dash (holes : Bool) {line : List Char} (h : Unbroken false line) :
    read holes ('-' :: line) = (read holes line).map ({ · with excluded := true }) := by
  have fed : Draft.feed holes {} '-' = Draft.modified {} true false := by cases holes <;> rfl
  rw [read_modifier holes fed (by decide +kernel) (by decide) (by decide) h]
  simp

end TagQuery.Query
