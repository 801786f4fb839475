import TagQuery.Sql.Fragment
import TagQuery.Sql.Query

/-! Statement text is read in three passes, into tokens, into items with their groups and bound
parameters, and by cutting the items at keywords. Main statements: texts that are put one behind the
other, with no word running on from one into the next, are read as their items one behind the other,
and items that were spread with a keyword between each two are cut there again. -/
namespace TagQuery.Sql

namespace Lexer

theorem step_append (ts before : List Token) (pending : Pending) (c : Char) :
    step ⟨ts ++ before, pending⟩ c =
      ⟨(step ⟨ts, pending⟩ c).tokens ++ before, (step ⟨ts, pending⟩ c).pending⟩ := by
  have entered (us : List Token) : enter (us ++ before) c =
      ⟨(enter us c).tokens ++ before, (enter us c).pending⟩ := by
    unfold enter
    repeat' split
    all_goals rfl
  cases pending with
  | nothing => exact entered ts
  | word read =>
    simp only [step]
    split
    · rfl
    · exact entered (.ofWord read.reverse :: ts)
  | quotes read =>
    simp only [step]
    split <;> rfl

/-- What was read before stays behind what is read now. -/
theorem foldl_append (text : List Char) (ts before : List Token) (pending : Pending) :
    text.foldl step ⟨ts ++ before, pending⟩ =
      ⟨(text.foldl step ⟨ts, pending⟩).tokens ++ before,
        (text.foldl step ⟨ts, pending⟩).pending⟩ := by
  induction text generalizing ts pending with
  | nil => rfl
  | cons c text ih => rw [List.foldl_cons, List.foldl_cons, step_append, ih]

theorem step_closeWord (l : Lexer) {c : Char} (h : isWordChar c = false) :
    step l.closeWord c = step l c := by
  obtain ⟨ts, pending⟩ := l
  cases pending with
  | nothing => rfl
  | word read => simp [closeWord, step, h]
  | quotes read => rfl

/-- A word is left open only behind one of its characters. -/
theorem closeWord_step (l : Lexer) {c : Char} (h : isWordChar c = false) :
    (step l c).closeWord = step l c := by
  have entered (us : List Token) : (enter us c).closeWord = enter us c := by
    unfold enter
    rw [if_neg (by simp [h])]
    repeat' split
    all_goals rfl
  obtain ⟨ts, pending⟩ := l
  cases pending with
  | nothing => exact entered ts
  | word read => simpa [step, h] using entered _
  | quotes read =>
    simp only [step]
    split <;> rfl

end Lexer

/-- The text is read as these tokens, and no quotes are left open. -/
def Lexes (text : List Char) (ts : List Token) : Prop :=
  (text.foldl Lexer.step {}).closeWord = ⟨ts.reverse, .nothing⟩

instance (text : List Char) (ts : List Token) : Decidable (Lexes text ts) :=
  inferInstanceAs (Decidable (_ = _))

/-- Whether no word can go on into the text. -/
def opens (text : List Char) : Bool :=
  text.head?.all (!isWordChar ·)

/-- Whether no word of the text can go on behind it. -/
def closes (text : List Char) : Bool :=
  text.getLast?.all (!isWordChar ·)

/-- No word goes on from the one text into the other. -/
def Apart (a b : List Char) : Prop :=
  closes a = true ∨ opens b = true

theorem opens_append {a b : List Char} (ha : opens a = true) (hb : opens b = true) :
    opens (a ++ b) = true := by
  cases a with
  | nil => exact hb
  | cons c a => exact ha

theorem opens_append_of_ne {a : List Char} (ne : a ≠ []) (b : List Char) :
    opens (a ++ b) = opens a := by
  cases a with
  | nil => exact absurd rfl ne
  | cons c a => rfl

theorem closes_append_of_ne {b : List Char} (ne : b ≠ []) (a : List Char) :
    closes (a ++ b) = closes b := by
  cases last : b.getLast? with
  | none => exact absurd (List.getLast?_eq_none_iff.mp last) ne
  | some c => rw [closes, closes, List.getLast?_append, last, Option.some_or]

theorem opens_literal {chars : List Char} (h : opens chars = true) :
    opens (String.ofList chars).toList = true :=
  of_literal (P := (opens · = true)) h

theorem closes_literal {chars : List Char} (h : closes chars = true) :
    closes (String.ofList chars).toList = true :=
  of_literal (P := (closes · = true)) h

theorem literal_ne_nil {chars : List Char} (ne : chars ≠ []) : (String.ofList chars).toList ≠ [] :=
  of_literal (P := (· ≠ [])) ne

theorem literal_eq_cons {c : Char} {chars : List Char} :
    (String.ofList (c :: chars)).toList = c :: (String.ofList (c :: chars)).toList.tail :=
  of_literal (P := fun text => text = c :: text.tail) rfl

theorem opens_literal_append {chars : List Char} (ne : chars ≠ []) (h : opens chars = true)
    (b : List Char) : opens ((String.ofList chars).toList ++ b) = true :=
  (opens_append_of_ne (literal_ne_nil ne) b).trans (opens_literal h)

theorem closes_append_literal {chars : List Char} (ne : chars ≠ []) (h : closes chars = true)
    (a : List Char) : closes (a ++ (String.ofList chars).toList) = true :=
  (closes_append_of_ne (literal_ne_nil ne) a).trans (closes_literal h)

theorem foldl_closeWord {a b : List Char} (h : Apart a b) (l : Lexer)
    (hl : l = a.foldl Lexer.step {}) :
    (b.foldl Lexer.step l.closeWord).closeWord = (b.foldl Lexer.step l).closeWord := by
  rcases h with last | first
  · rcases List.eq_nil_or_concat a with rfl | ⟨front, c, rfl⟩
    · rw [hl]
      rfl
    · have closed : isWordChar c = false := by simpa [closes] using last
      rw [hl, List.concat_eq_append, List.foldl_append, List.foldl_cons, List.foldl_nil,
        Lexer.closeWord_step _ closed]
  · cases b with
    | nil =>
      obtain ⟨ts, pending⟩ := l
      cases pending <;> rfl
    | cons c b =>
      have apart : isWordChar c = false := by simpa [opens] using first
      rw [List.foldl_cons, List.foldl_cons, Lexer.step_closeWord l apart]

theorem Lexes.append {a b : List Char} {ts us : List Token} (ha : Lexes a ts) (hb : Lexes b us)
    (h : Apart a b) : Lexes (a ++ b) (ts ++ us) := by
  have closed (l : Lexer) (before : List Token) :
      Lexer.closeWord ⟨l.tokens ++ before, l.pending⟩ =
        ⟨l.closeWord.tokens ++ before, l.closeWord.pending⟩ := by
    obtain ⟨ts, pending⟩ := l
    cases pending <;> rfl
  have behind := Lexer.foldl_append b [] ts.reverse .nothing
  rw [List.nil_append] at behind
  unfold Lexes at hb ⊢
  rw [List.foldl_append, ← foldl_closeWord h _ rfl, ha, behind, closed, hb, List.reverse_append]

theorem Lexes.tokens {text : List Char} {ts : List Token} (h : Lexes text ts) :
    Sql.tokens text = ts := by
  rw [Sql.tokens, h, List.reverse_reverse]

theorem foldl_word (text read : List Char) (ts : List Token)
    (h : ∀ c ∈ text, isWordChar c = true) :
    text.foldl Lexer.step ⟨ts, .word read⟩ = ⟨ts, .word (text.reverse ++ read)⟩ := by
  induction text generalizing read with
  | nil => rfl
  | cons c text ih =>
    have first : Lexer.step ⟨ts, .word read⟩ c = ⟨ts, .word (c :: read)⟩ :=
      if_pos (h c List.mem_cons_self)
    rw [List.foldl_cons, first, ih _ fun d hd => h d (List.mem_cons_of_mem c hd),
      List.reverse_cons, List.append_assoc]
    rfl

theorem lexes_word {c : Char} {text : List Char} (h : ∀ d ∈ c :: text, isWordChar d = true) :
    Lexes (c :: text) [.ofWord (c :: text)] := by
  have first : Lexer.step {} c = ⟨[], .word [c]⟩ :=
    if_pos (h c List.mem_cons_self)
  rw [Lexes, List.foldl_cons, first,
    foldl_word text [c] [] fun d hd => h d (List.mem_cons_of_mem c hd)]
  simp [Lexer.closeWord]

/-- With the parameters bound to their placeholders the tokens are these items. -/
def Nests (ts : List Token) (params : List (List Char)) (items : List Item) : Prop :=
  ∀ rest read outer, ts.foldl Nest.step ⟨params ++ rest, read, outer⟩ =
    ⟨rest, items.reverse ++ read, outer⟩

theorem Nests.append {ts us : List Token} {ps qs : List (List Char)} {xs ys : List Item}
    (h : Nests ts ps xs) (h' : Nests us qs ys) : Nests (ts ++ us) (ps ++ qs) (xs ++ ys) := by
  intro rest read outer
  rw [List.foldl_append, List.append_assoc, h, h', List.reverse_append, List.append_assoc]

theorem Nests.group {ts : List Token} {ps : List (List Char)} {xs : List Item}
    (h : Nests ts ps xs) :
    Nests (.mark '(' :: (ts ++ [.mark ')'])) ps [.group xs] := by
  intro rest read outer
  have opened : Nest.step ⟨ps ++ rest, read, outer⟩ (.mark '(') =
      ⟨ps ++ rest, [], read :: outer⟩ := rfl
  rw [List.foldl_cons, opened, List.foldl_append, h, List.append_nil]
  simp [Nest.step]

/-- With the parameters bound to its placeholders the text is read as these items. -/
def Spells (text : List Char) (params : List (List Char)) (items : List Item) : Prop :=
  ∃ ts, Lexes text ts ∧ Nests ts params items

namespace Spells

theorem nil : Spells [] [] [] :=
  ⟨[], rfl, fun _ _ _ => rfl⟩

theorem literal {chars : List Char} {params : List (List Char)} {items : List Item}
    (ts : List Token) (lexes : Lexes chars ts) (nests : Nests ts params items) :
    Spells (String.ofList chars).toList params items :=
  ⟨ts, of_literal (P := (Lexes · ts)) lexes, nests⟩

/-- A literal without its first character, which may belong to a group. -/
theorem literal_tail {c : Char} {chars : List Char} {params : List (List Char)} {items : List Item}
    (ts : List Token) (lexes : Lexes chars ts) (nests : Nests ts params items) :
    Spells (String.ofList (c :: chars)).toList.tail params items :=
  ⟨ts, of_literal (P := (Lexes ·.tail ts)) lexes, nests⟩

theorem append {a b : List Char} {ps qs : List (List Char)} {xs ys : List Item}
    (ha : Spells a ps xs) (hb : Spells b qs ys) (h : Apart a b) :
    Spells (a ++ b) (ps ++ qs) (xs ++ ys) := by
  obtain ⟨ts, hts, hxs⟩ := ha
  obtain ⟨us, hus, hys⟩ := hb
  exact ⟨ts ++ us, hts.append hus h, hxs.append hys⟩

theorem after {a b : List Char} {ps : List (List Char)} {xs ys : List Item} (ha : Spells a [] xs)
    (hb : Spells b ps ys) (h : Apart a b) : Spells (a ++ b) ps (xs ++ ys) :=
  ha.append hb h

theorem before {a b : List Char} {ps : List (List Char)} {xs ys : List Item} (ha : Spells a ps xs)
    (hb : Spells b [] ys) (h : Apart a b) : Spells (a ++ b) ps (xs ++ ys) := by
  simpa using ha.append hb h

theorem group {a : List Char} {ps : List (List Char)} {xs : List Item} (h : Spells a ps xs) :
    Spells ('(' :: (a ++ [')'])) ps [.group xs] := by
  obtain ⟨ts, hts, hxs⟩ := h
  have opening : Lexes ['('] [.mark '('] := rfl
  have closing : Lexes [')'] [.mark ')'] := rfl
  have inner := hts.append closing (.inr (by decide))
  exact ⟨_, opening.append inner (.inl (by decide)), hxs.group⟩

theorem items? {text : List Char} {ps : List (List Char)} {xs : List Item} (h : Spells text ps xs) :
    items? (tokens text) ps = some xs := by
  obtain ⟨ts, hts, hxs⟩ := h
  have read := hxs [] [] []
  rw [List.append_nil, List.append_nil] at read
  rw [hts.tokens, Sql.items?, read]
  simp

end Spells

/-- Texts one after the other, where no word can go on into any of them. -/
theorem Spells.flatMap {α : Type} {text : α → List Char} {params : α → List (List Char)}
    {items : α → List Item} (xs : List α) (h : ∀ x ∈ xs, Spells (text x) (params x) (items x))
    (opening : ∀ x ∈ xs, opens (text x) = true) :
    Spells (xs.flatMap text) (xs.flatMap params) (xs.flatMap items) ∧
      opens (xs.flatMap text) = true := by
  induction xs with
  | nil => exact ⟨.nil, rfl⟩
  | cons x xs ih =>
    obtain ⟨others, apart⟩ := ih (fun y hy => h y (List.mem_cons_of_mem x hy))
      fun y hy => opening y (List.mem_cons_of_mem x hy)
    simp only [List.flatMap_cons]
    exact ⟨(h x List.mem_cons_self).append others (.inr apart),
      opens_append (opening x List.mem_cons_self) apart⟩

/-- Parts with a keyword between each two. -/
def spread (k : Keyword) : List (List Item) → List Item
  | [] => []
  | part :: parts => part ++ parts.flatMap (.key k :: ·)

/-- Texts with a separator between each two that spells a keyword and nothing can run into. -/
theorem Spells.separated {α : Type} {sep : List Char} {k : Keyword}
    (hsep : Spells sep [] [.key k]) (ne : sep ≠ []) (opening : opens sep = true)
    (closing : closes sep = true) {text : α → List Char} {params : α → List (List Char)}
    {items : α → List Item} (xs : List α) (h : ∀ x ∈ xs, Spells (text x) (params x) (items x)) :
    Spells (separated sep (xs.map text)) (xs.flatMap params) (spread k (xs.map items)) := by
  cases xs with
  | nil => exact .nil
  | cons x xs =>
    have parts (y : α) (hy : y ∈ xs) :
        Spells (sep ++ text y) (params y) (.key k :: items y) :=
      hsep.after (h y (List.mem_cons_of_mem x hy)) (.inl closing)
    obtain ⟨others, apart⟩ := Spells.flatMap xs parts fun y _ =>
      (opens_append_of_ne ne (text y)).trans opening
    simp only [List.map_cons, Sql.separated, spread, List.flatMap_map, List.flatMap_cons]
    exact (h x List.mem_cons_self).append others (.inr apart)

/-- Whether the keyword does not stand among the items; those in groups do not count. -/
def lacks (k : Keyword) (items : List Item) : Bool :=
  items.all (!·.isKey k)

theorem lacks_append {k : Keyword} {a b : List Item} (ha : lacks k a = true)
    (hb : lacks k b = true) : lacks k (a ++ b) = true := by
  rw [lacks, List.all_append, Bool.and_eq_true]
  exact ⟨ha, hb⟩

theorem lacks_flatMap {α : Type} {k : Keyword} {f : α → List Item} {xs : List α}
    (h : ∀ x ∈ xs, lacks k (f x) = true) : lacks k (xs.flatMap f) = true := by
  rw [lacks, List.all_flatMap, List.all_eq_true]
  exact h

theorem lacks_spread {k j : Keyword} {parts : List (List Item)} (hkj : (j == k) = false)
    (h : ∀ part ∈ parts, lacks k part = true) : lacks k (spread j parts) = true := by
  cases parts with
  | nil => rfl
  | cons part parts =>
    refine lacks_append (h part List.mem_cons_self) (lacks_flatMap fun other hother => ?_)
    have others : lacks k other = true := h other (List.mem_cons_of_mem part hother)
    simpa [lacks, Item.isKey, hkj] using others

theorem cutFrom_append {k : Keyword} {a : List Item} (h : lacks k a = true) (part b : List Item) :
    cutFrom k part (a ++ b) = cutFrom k (a.reverse ++ part) b := by
  induction a generalizing part with
  | nil => rfl
  | cons item a ih =>
    rw [lacks, List.all_cons, Bool.and_eq_true, Bool.not_eq_true'] at h
    rw [List.cons_append, cutFrom, h.1, if_neg Bool.false_ne_true, ih h.2, List.reverse_cons,
      List.append_assoc]
    rfl

theorem cut_of_lacks {k : Keyword} {a : List Item} (h : lacks k a = true) : cut k a = [a] := by
  have all := cutFrom_append h [] []
  rw [List.append_nil, List.append_nil] at all
  rw [cut, all, cutFrom, List.reverse_reverse]

theorem cut_append {k : Keyword} {a : List Item} (h : lacks k a = true) (b : List Item) :
    cut k (a ++ .key k :: b) = a :: cut k b := by
  rw [cut, cutFrom_append h, cutFrom, List.append_nil, List.reverse_reverse,
    if_pos (by simp [Item.isKey]), cut]

/-- A part and others that each begin with the keyword are cut where they were joined. -/
theorem cut_flatMap {k : Keyword} {part : List Item} {parts : List (List Item)}
    (h : ∀ p ∈ part :: parts, lacks k p = true) :
    cut k (part ++ parts.flatMap (.key k :: ·)) = part :: parts := by
  induction parts generalizing part with
  | nil =>
    rw [List.flatMap_nil, List.append_nil]
    exact cut_of_lacks (h part List.mem_cons_self)
  | cons other parts ih =>
    rw [List.flatMap_cons, List.cons_append, cut_append (h part List.mem_cons_self),
      ih fun p hp => h p (List.mem_cons_of_mem part hp)]

theorem cut_spread {k : Keyword} {parts : List (List Item)} (ne : parts ≠ [])
    (h : ∀ part ∈ parts, lacks k part = true) : cut k (spread k parts) = parts := by
  cases parts with
  | nil => exact absurd rfl ne
  | cons part parts => exact cut_flatMap h

theorem mapM_map {α β γ : Type} {f : β → Option γ} {g : α → β} {r : α → γ} (xs : List α)
    (h : ∀ x ∈ xs, f (g x) = some (r x)) : (xs.map g).mapM f = some (xs.map r) := by
  induction xs with
  | nil => rfl
  | cons x xs ih =>
    rw [List.map_cons, List.mapM_cons, h x List.mem_cons_self,
      ih fun y hy => h y (List.mem_cons_of_mem x hy)]
    rfl

end TagQuery.Sql
