import Mathlib.Data.List.Nodup
import TagQuery.Options.Reader
import TagQuery.Proofs.Nesting

/-! Which texts hold options is said here without the reader: a JSON object that gives them by name,
or an array that gives them in order, where each option is given once or has its default. Main
statements: the reader finds options in exactly these texts, and what is written is read back, for
every capacity of 64 bits. -/
namespace TagQuery.Json

theorem chars?_map_char (chars : List Char) : chars? (chars.map .char) = some chars := by
  have general : ∀ read, charsFrom read (chars.map .char) = some (read.reverse ++ chars) := by
    induction chars with
    | nil => simp [charsFrom]
    | cons c chars ih =>
      intro read
      rw [List.map_cons, charsFrom, ih]
      simp
  exact general []

theorem quotes_map_char {chars : List Char} (h : ∀ c ∈ chars, isPlain c = true) :
    Quotes (chars.map .char) chars := by
  induction chars with
  | nil => exact .nil
  | cons c chars ih =>
    exact .char (h c List.mem_cons_self) (ih fun x hx => h x (List.mem_cons_of_mem c hx))

/-- A number is not written with a zero in front. -/
theorem head?_toDigits {n : Nat} (h : 0 < n) : (Nat.toDigits 10 n).head? ≠ some '0' := by
  induction n using Nat.strongRecOn with
  | ind n ih =>
    rw [Nat.toDigits_eq_if (by decide)]
    split
    · next small =>
      have digits : ∀ n < 10, 0 < n → n.digitChar ≠ '0' := by decide
      simpa using digits n small h
    · next large =>
      have leading := ih (n / 10) (by omega) (by omega)
      obtain ⟨d, digits, cons⟩ := List.exists_cons_of_ne_nil (@Nat.toDigits_ne_nil (n / 10) 10)
      rw [cons] at leading ⊢
      exact leading

theorem isNumber_toDigits (n : Nat) : IsNumber (Nat.toDigits 10 n) := by
  have whole : IsWhole (Nat.toDigits 10 n) := by
    refine ⟨⟨Nat.toDigits_ne_nil, fun d hd =>
      Nat.isDigit_of_mem_toDigits (by decide) (by decide) hd⟩, fun zero => ?_⟩
    rcases Nat.eq_zero_or_pos n with rfl | positive
    · rfl
    · exact absurd zero (head?_toDigits positive)
  have number := IsNumber.mk (.inl rfl) whole .none .none
  rwa [List.nil_append, List.append_nil, List.append_nil] at number

end TagQuery.Json

namespace TagQuery.Options

open Json

/-- The value of an option among named entries: its default if no entry has its name, or what the
only entry with its name says. -/
inductive Given {α : Type} (entries : List (List Char × Value)) (key : List Char)
    (decode : Value → Option α) (default : α) : α → Prop where
  | absent (h : key ∉ entries.map (·.1)) : Given entries key decode default default
  | once {value : Value} {a : α} (mem : (key, value) ∈ entries)
      (once : (entries.map (·.1)).count key = 1) (decoded : decode value = some a) :
      Given entries key decode default a

structure Gives (entries : List (List Char × Value)) (o : Options) : Prop where
  wildcards : Given entries wildcardsKey bool? true o.wildcards
  capacity : Given entries capacityKey capacity? 256 o.cacheCapacity
  lenient : Given entries lenientKey bool? true o.lenient

/-- A member of an object, and an entry with its key as a text. -/
def Named (m : List Letter × Value) (entry : List Char × Value) : Prop :=
  chars? m.1 = some entry.1 ∧ m.2 = entry.2

/-- The entries of an object are its members, and those of an array come in the order of the
options. -/
inductive Entries : Value → List (List Char × Value) → Prop where
  | object {members : List (List Letter × Value)} {entries : List (List Char × Value)}
      (h : List.Forall₂ Named members entries) : Entries (.object members) entries
  | array {items : List Value} (h : items.length ≤ 3) :
      Entries (.array items) ([wildcardsKey, capacityKey, lenientKey].zip items)

def Holds (text : List Char) (o : Options) : Prop :=
  ∃ value entries, Value.Written value text ∧ Entries value entries ∧ Gives entries o

theorem count_keys (entries : List (List Char × Value)) (key : List Char) :
    (entries.map (·.1)).count key = (entries.filter (·.1 == key)).length := by
  rw [List.count, List.countP_map, List.countP_eq_length_filter]
  rfl

theorem field_eq_ok_iff {α : Type} {entries : List (List Char × Value)} {key : List Char}
    {default a : α} {decode : Value → Option α} :
    field entries key default decode = .ok a ↔ Given entries key decode default a := by
  have count := count_keys entries key
  constructor
  · intro h
    unfold field at h
    split at h
    · next none_named =>
      cases h
      rw [none_named] at count
      exact .absent (List.count_eq_zero.mp count)
    · next m only =>
      have named : m ∈ entries ∧ (m.1 == key) = true := by
        apply List.mem_filter.mp
        rw [only]
        exact List.mem_singleton_self m
      split at h
      · next decoded =>
        cases h
        rw [only] at count
        exact .once (beq_iff_eq.mp named.2 ▸ named.1) count decoded
      · cases h
    · cases h
  · intro given
    cases given with
    | absent h =>
      rw [List.count_eq_zero.mpr h] at count
      rw [field, List.length_eq_zero_iff.mp count.symm]
    | @once value _ mem once decoded =>
      rw [once] at count
      obtain ⟨m, only⟩ := List.length_eq_one_iff.mp count.symm
      have named : (key, value) ∈ entries.filter (·.1 == key) :=
        List.mem_filter.mpr ⟨mem, beq_self_eq_true key⟩
      rw [only] at named
      cases List.mem_singleton.mp named
      rw [field, only]
      simp only [decoded]

theorem ofMembers_eq_ok_iff {entries : List (List Char × Value)} {o : Options} :
    ofMembers entries = .ok o ↔ Gives entries o := by
  constructor
  · intro h
    unfold ofMembers at h
    split at h
    · next wildcards capacity lenient =>
      cases h
      exact ⟨field_eq_ok_iff.mp wildcards, field_eq_ok_iff.mp capacity, field_eq_ok_iff.mp lenient⟩
    all_goals cases h
  · rintro ⟨wildcards, capacity, lenient⟩
    unfold ofMembers
    rw [field_eq_ok_iff.mpr wildcards, field_eq_ok_iff.mpr capacity, field_eq_ok_iff.mpr lenient]

theorem namedFrom_nil_eq_ok_iff {members : List (List Letter × Value)}
    {entries : List (List Char × Value)} :
    namedFrom [] members = .ok entries ↔ List.Forall₂ Named members entries := by
  have general : ∀ read, namedFrom read members = .ok entries ↔
      ∃ own, List.Forall₂ Named members own ∧ entries = read.reverse ++ own := by
    induction members with
    | nil => simp [namedFrom, eq_comm]
    | cons m members ih =>
      intro read
      rw [namedFrom]
      cases named : chars? m.1 with
      | none =>
        refine iff_of_false nofun ?_
        rintro ⟨own, each, -⟩
        cases each with
        | cons first =>
          rw [Named, named] at first
          cases first.1
      | some key =>
        simp only [ih]
        constructor
        · rintro ⟨own, each, rfl⟩
          exact ⟨(key, m.2) :: own, .cons ⟨named, rfl⟩ each, by simp⟩
        · rintro ⟨own, each, rfl⟩
          cases each with
          | @cons _ entry _ own first rest =>
            rw [Named, named] at first
            obtain ⟨same, value⟩ := first
            exact ⟨own, rest, by simp [Option.some.inj same, value]⟩
  rw [general []]
  simp

theorem ofValue_eq_ok_iff {value : Value} {o : Options} :
    ofValue value = .ok o ↔ ∃ entries, Entries value entries ∧ Gives entries o := by
  constructor
  · intro h
    unfold ofValue at h
    split at h
    · split at h
      · next named =>
        exact ⟨_, .object (namedFrom_nil_eq_ok_iff.mp named), ofMembers_eq_ok_iff.mp h⟩
      · cases h
    · simp only [ofItems] at h
      split at h
      · next few => exact ⟨_, .array few, ofMembers_eq_ok_iff.mp h⟩
      · cases h
    · cases h
  · rintro ⟨entries, kind, gives⟩
    cases kind with
    | object each =>
      rw [ofValue, namedFrom_nil_eq_ok_iff.mpr each]
      exact ofMembers_eq_ok_iff.mpr gives
    | array few =>
      rw [ofValue, ofItems]
      exact (if_pos few).trans (ofMembers_eq_ok_iff.mpr gives)

/-- The reader finds options exactly in the texts that hold them. -/
theorem parse_eq_ok_iff {text : List Char} {o : Options} : parse text = .ok o ↔ Holds text o := by
  constructor
  · intro h
    unfold parse at h
    split at h
    · next value read =>
      obtain ⟨entries, kind, gives⟩ := ofValue_eq_ok_iff.mp h
      exact ⟨value, entries, Value.parse_eq_ok_iff.mp read, kind, gives⟩
    · cases h
  · rintro ⟨value, entries, written, kind, gives⟩
    rw [parse, Value.parse_eq_ok_iff.mpr written]
    exact ofValue_eq_ok_iff.mpr ⟨entries, kind, gives⟩

theorem keys_plain :
    ∀ key ∈ [wildcardsKey, capacityKey, lenientKey], key.all isPlain = true := by
  decide +kernel

def entries (o : Options) : List (List Char × Value) :=
  [(wildcardsKey, .bool o.wildcards),
    (capacityKey, .number (Nat.toDigits 10 o.cacheCapacity.toNat)),
    (lenientKey, .bool o.lenient)]

theorem written_boolText (b : Bool) : (Value.bool b).Written (boolText b) := by
  rw [Value.Written, Value.tokens]
  cases b with
  | true =>
    have letters : boolText true = ['t', 'r', 'u', 'e'] := by decide
    rw [letters]
    exact .singleton .yes
  | false =>
    have letters : boolText false = ['f', 'a', 'l', 's', 'e'] := by decide
    rw [letters]
    exact .singleton .no

theorem written_toDigits (n : Nat) : (Value.number (Nat.toDigits 10 n)).Written
    (Nat.toDigits 10 n) := by
  rw [Value.Written, Value.tokens]
  exact .singleton (.number (isNumber_toDigits n))

theorem spaced_memberText {key text : List Char} {value : Value} (plain : key.all isPlain = true)
    (h : value.Written text) :
    Spaced (memberTokens (key.map .char, value)) (memberText key text) := by
  have spaced : Spaced (memberTokens (key.map .char, value))
      (('"' :: key ++ ['"']) ++ ([':'] ++ text)) :=
    .token (.string (quotes_map_char (List.all_eq_true.mp plain))) (.token .colon h)
  simpa [memberText] using spaced

theorem written_render (o : Options) :
    (Value.object (o.entries.map fun e => (e.1.map .char, e.2))).Written o.render := by
  have text : o.render = ['\x7b'] ++ [','].intercalate
      [memberText wildcardsKey (boolText o.wildcards),
        memberText capacityKey (Nat.toDigits 10 o.cacheCapacity.toNat),
        memberText lenientKey (boolText o.lenient)] ++ ['\x7d'] := by
    simp [render]
  rw [text]
  refine Value.written_object (.singleton .openObject) ?_ (.singleton .closeObject)
  exact .cons (spaced_memberText (keys_plain _ (by simp)) (written_boolText o.wildcards))
    (.cons (spaced_memberText (keys_plain _ (by simp)) (written_toDigits _))
      (.cons (spaced_memberText (keys_plain _ (by simp)) (written_boolText o.lenient)) .nil))

theorem capacity?_toDigits (n : UInt64) :
    capacity? (.number (Nat.toDigits 10 n.toNat)) = some n := by
  have digits : (Nat.toDigits 10 n.toNat).all Char.isDigit = true :=
    List.all_eq_true.mpr fun d hd => Nat.isDigit_of_mem_toDigits (by decide) (by decide) hd
  have value : natOfDigits (Nat.toDigits 10 n.toNat) = n.toNat :=
    Nat.ofDigitChars_toDigits (by decide) (by decide)
  have fits : n.toNat < UInt64.size := n.toNat_lt
  simp [capacity?, digits, value, fits]

theorem gives_entries (o : Options) : Gives o.entries o := by
  have distinct : (o.entries.map (·.1)).Nodup := by
    have keys : [wildcardsKey, capacityKey, lenientKey].Nodup := by decide +kernel
    exact keys
  have once : ∀ e ∈ o.entries, (o.entries.map (·.1)).count e.1 = 1 := fun e he =>
    List.count_eq_one_of_mem distinct (List.mem_map_of_mem he)
  have first : (wildcardsKey, Value.bool o.wildcards) ∈ o.entries := List.mem_cons_self
  have second : (capacityKey, Value.number (Nat.toDigits 10 o.cacheCapacity.toNat)) ∈ o.entries :=
    List.mem_cons_of_mem _ List.mem_cons_self
  have third : (lenientKey, Value.bool o.lenient) ∈ o.entries :=
    List.mem_cons_of_mem _ (List.mem_cons_of_mem _ List.mem_cons_self)
  exact ⟨.once first (once _ first) rfl,
    .once second (once _ second) (capacity?_toDigits o.cacheCapacity),
    .once third (once _ third) rfl⟩

theorem parse_render (o : Options) : parse o.render = .ok o := by
  refine parse_eq_ok_iff.mpr ⟨_, o.entries, o.written_render, .object ?_, o.gives_entries⟩
  rw [List.forall₂_map_left_iff, List.forall₂_same]
  exact fun e _ => ⟨chars?_map_char e.1, rfl⟩

end TagQuery.Options
