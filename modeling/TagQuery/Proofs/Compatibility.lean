import Mathlib.Logic.Relation
import TagQuery.Catalogue.Connection
import TagQuery.Proofs.OptionsText

/-! Stored options may have been written with their members in another order, with members that are
not known here, or with other blanks. Main statement: no number of such edits changes the options
that a text of an object holds, and an option that it does not give has its default. -/
namespace TagQuery.Options

open Json

/-- A member as it stands in the text of an object. Its key may be written with escapes. -/
structure Member where
  key : List Char
  value : Value
  letters : List Letter
  text : List Char
  named : chars? letters = some key
  spaced : Spaced (memberTokens (letters, value)) text

def Member.entry (m : Member) : List Char × Value :=
  (m.key, m.value)

structure Braces where
  opening : List Char
  closing : List Char
  opens : Spaced [.openObject] opening
  closes : Spaced [.closeObject] closing

def Braces.text (braces : Braces) (members : List Member) : List Char :=
  braces.opening ++ [','].intercalate (members.map (·.text)) ++ braces.closing

/-- One edit of a text: the members of an object in another order, one more member with a key that
is not known, or other blanks between two tokens, where there may have been none. -/
inductive Edit : List Char → List Char → Prop where
  | reorder (braces : Braces) {members members' : List Member} (h : members.Perm members') :
      Edit (braces.text members) (braces.text members')
  | insert (braces : Braces) (before after : List Member) {m : Member}
      (unknown : m.key ∉ [wildcardsKey, capacityKey, lenientKey]) :
      Edit (braces.text (before ++ after)) (braces.text (before ++ m :: after))
  | space {value : Value} {left right : List Token} {before blanks blanks' after : List Char}
      (cut : value.tokens = left ++ right) (first : Spaced left before) (last : Spaced right after)
      (blank : ∀ c ∈ blanks, isSpace c = true) (blank' : ∀ c ∈ blanks', isSpace c = true) :
      Edit (before ++ (blanks ++ after)) (before ++ (blanks' ++ after))

section Entries

variable {entries entries' : List (List Char × Value)}

theorem Given.perm {α : Type} {key : List Char} {decode : Value → Option α} {default a : α}
    (given : Given entries key decode default a) (h : entries.Perm entries') :
    Given entries' key decode default a := by
  have keys : (entries.map (·.1)).Perm (entries'.map (·.1)) := h.map _
  cases given with
  | absent fresh => exact .absent (mt keys.mem_iff.mpr fresh)
  | once mem once decoded =>
    exact .once (h.mem_iff.mp mem) ((keys.count_eq key).symm.trans once) decoded

theorem Given.cons {α : Type} {key : List Char} {decode : Value → Option α} {default a : α}
    (given : Given entries key decode default a) {entry : List Char × Value}
    (other : entry.1 ≠ key) : Given (entry :: entries) key decode default a := by
  cases given with
  | absent fresh =>
    refine .absent fun h => ?_
    rcases List.mem_cons.mp h with same | h
    · exact other same.symm
    · exact fresh h
  | once mem once decoded =>
    refine .once (List.mem_cons_of_mem entry mem) ?_ decoded
    rw [List.map_cons, List.count_cons_of_ne other, once]

theorem Gives.perm {o : Options} (gives : Gives entries o) (h : entries.Perm entries') :
    Gives entries' o :=
  ⟨gives.wildcards.perm h, gives.capacity.perm h, gives.lenient.perm h⟩

theorem Gives.cons {o : Options} (gives : Gives entries o) {entry : List Char × Value}
    (unknown : entry.1 ∉ [wildcardsKey, capacityKey, lenientKey]) : Gives (entry :: entries) o := by
  simp only [List.mem_cons, List.not_mem_nil, or_false, not_or] at unknown
  obtain ⟨wildcards, capacity, lenient⟩ := unknown
  exact ⟨gives.wildcards.cons wildcards, gives.capacity.cons capacity, gives.lenient.cons lenient⟩

end Entries

theorem Braces.written (braces : Braces) (members : List Member) :
    (Value.object (members.map fun m => (m.letters, m.value))).Written (braces.text members) := by
  refine Value.written_object braces.opens ?_ braces.closes
  rw [List.forall₂_map_left_iff, List.forall₂_map_right_iff, List.forall₂_same]
  exact fun m _ => m.spaced

theorem Braces.parse_text (braces : Braces) (members : List Member) {o : Options} :
    parse (braces.text members) = .ok o ↔ Gives (members.map (·.entry)) o := by
  have named : List.Forall₂ Named (members.map fun m => (m.letters, m.value))
      (members.map (·.entry)) := by
    rw [List.forall₂_map_left_iff, List.forall₂_map_right_iff, List.forall₂_same]
    exact fun m _ => ⟨m.named, rfl⟩
  rw [parse, Value.parse_eq_ok_iff.mpr (braces.written members)]
  simp only [ofValue, namedFrom_nil_eq_ok_iff.mpr named]
  exact ofMembers_eq_ok_iff

theorem exists_members {members : List (List Letter × Value)} {entries : List (List Char × Value)}
    {pieces : List (List Char)} (named : List.Forall₂ Named members entries)
    (each : List.Forall₂ (fun m piece => Spaced (memberTokens m) piece) members pieces) :
    ∃ ms : List Member, ms.map (·.text) = pieces ∧ ms.map (·.entry) = entries := by
  induction named generalizing pieces with
  | nil =>
    cases each
    exact ⟨[], rfl, rfl⟩
  | @cons m entry members entries first _ ih =>
    cases each with
    | @cons _ piece _ pieces spaced rest =>
      obtain ⟨ms, rfl, rfl⟩ := ih rest
      exact ⟨⟨entry.1, m.2, m.1, piece, first.1, spaced⟩ :: ms, rfl,
        by simp [Member.entry, first.2]⟩

/-- The text of an object that holds options consists of members that give them. -/
theorem exists_braces {members : List (List Letter × Value)} {text : List Char} {o : Options}
    (object : (Value.object members).Written text) (read : parse text = .ok o) :
    ∃ (braces : Braces) (ms : List Member),
      text = braces.text ms ∧ Gives (ms.map (·.entry)) o := by
  rw [parse, Value.parse_eq_ok_iff.mpr object] at read
  obtain ⟨entries, kind, gives⟩ := ofValue_eq_ok_iff.mp read
  cases kind with
  | object named =>
    obtain ⟨opening, pieces, closing, opens, each, closes, rfl⟩ := object.pieces
    obtain ⟨ms, rfl, rfl⟩ := exists_members named each
    exact ⟨⟨opening, closing, opens, closes⟩, ms, rfl, gives⟩

theorem Edit.parse_eq {text text' : List Char} (h : Edit text text') {o : Options}
    (read : parse text = .ok o) : parse text' = .ok o := by
  cases h with
  | reorder braces perm =>
    rw [Braces.parse_text] at read ⊢
    exact read.perm (perm.map _)
  | insert braces before after unknown =>
    rw [Braces.parse_text] at read ⊢
    rw [List.map_append] at read
    rw [List.map_append, List.map_cons]
    exact (read.cons unknown).perm List.perm_middle.symm
  | @space value left right before blanks blanks' after cut first last blank blank' =>
    have written {gap : List Char} (h : ∀ c ∈ gap, isSpace c = true) :
        value.Written (before ++ (gap ++ after)) := by
      rw [Value.Written, cut]
      exact first.append (last.blanks h)
    rw [parse, Value.parse_eq_ok_iff.mpr (written blank)] at read
    rw [parse, Value.parse_eq_ok_iff.mpr (written blank')]
    exact read

theorem parse_of_edits {text text' : List Char} (edits : Relation.ReflTransGen Edit text text')
    {o : Options} (read : parse text = .ok o) : parse text' = .ok o := by
  induction edits with
  | refl => exact read
  | tail _ edit ih => exact edit.parse_eq ih

/-- The text of an object that holds options consists of members, which give each option once or
leave it at its default; and whatever is reordered, inserted or spaced, the edited text holds the
same options, also if they are loaded from a catalogue. -/
theorem edits_keep_options {members : List (List Letter × Value)} {text : List Char} {o : Options}
    (object : (Value.object members).Written text) (read : parse text = .ok o) :
    (∃ (braces : Braces) (ms : List Member),
      text = braces.text ms ∧ Gives (ms.map (·.entry)) o) ∧
    ∀ text', Relation.ReflTransGen Edit text text' →
      parse text' = .ok o ∧
      ∀ c : Connection, c.getSetting Connection.optionsKey = .ok (some text') →
        c.loadOptions = .ok (some o, []) := by
  refine ⟨exists_braces object read, fun text' edits => ?_⟩
  have reread := parse_of_edits edits read
  refine ⟨reread, fun c stored => ?_⟩
  simp only [Connection.loadOptions, stored, reread]

private def braces : Braces :=
  ⟨['\x7b'], ['\x7d'], .singleton .openObject, .singleton .closeObject⟩

private def strict : Member where
  key := lenientKey
  value := .bool false
  letters := lenientKey.map .char
  text := memberText lenientKey (boolText false)
  named := chars?_map_char lenientKey
  spaced := spaced_memberText (keys_plain _ (by simp)) (written_boolText false)

private def deepText : List Char :=
  "[\x7b\"lenient\":[ ],\"\\ud800\":null\x7d,1e9]".toList

private def deep : Value :=
  .array [.object [(lenientKey.map .char, .array []), ([.unit 0xD800], .null)],
    .number ['1', 'e', '9']]

private theorem written_deep : deep.Written deepText :=
  Value.parse_eq_ok_iff.mp rfl

/-- The key `x` is written with an escape, and its value has the name of an option inside. -/
private def unknown : Member where
  key := ['x']
  value := deep
  letters := [.unit 120]
  text := ('"' :: ['\\', 'u', '0', '0', '7', '8'] ++ ['"']) ++ ([':'] ++ deepText)
  named := rfl
  spaced := .token (.string (.unit rfl .nil)) (.token .colon written_deep)

theorem edits_keep_options_deep :
    parse (braces.text [strict]) = .ok ⟨true, 256, false⟩ ∧
    Relation.ReflTransGen Edit (braces.text [strict]) (['\n'] ++ braces.text [unknown, strict]) ∧
    parse (['\n'] ++ braces.text [unknown, strict]) = .ok ⟨true, 256, false⟩ := by
  have read : parse (braces.text [strict]) = .ok ⟨true, 256, false⟩ := rfl
  have inserted : Edit (braces.text [strict]) (braces.text [strict, unknown]) :=
    .insert braces [strict] [] (by decide +kernel)
  have reordered : Edit (braces.text [strict, unknown]) (braces.text [unknown, strict]) :=
    .reorder braces (.swap unknown strict [])
  have blank : ∀ c ∈ ['\n'], isSpace c = true := by simp [isSpace]
  have spaced : Edit (braces.text [unknown, strict]) (['\n'] ++ braces.text [unknown, strict]) :=
    Edit.space (List.nil_append _).symm .nil (braces.written [unknown, strict])
      (List.forall_mem_nil _) blank
  have edits : Relation.ReflTransGen Edit (braces.text [strict])
      (['\n'] ++ braces.text [unknown, strict]) :=
    ((Relation.ReflTransGen.single inserted).tail reordered).tail spaced
  exact ⟨read, edits, ((edits_keep_options (braces.written [strict]) read).2 _ edits).1⟩

end TagQuery.Options
