/-! Pieces of statement text with the texts bound to their placeholders. -/
namespace TagQuery.Sql

/-- The number of placeholders in a statement text: every `?` is one. -/
def placeholders (sql : List Char) : Nat :=
  sql.count '?'

/-- Statement text with exactly one parameter for each placeholder. -/
structure Fragment where
  sql : List Char
  params : List (List Char)
  balanced : placeholders sql = params.length
  deriving DecidableEq

structure Mismatch where
  sql : List Char
  found : Nat
  given : Nat
  deriving DecidableEq, Repr

def Mismatch.message (m : Mismatch) : String :=
  "assertion `left == right` failed: placeholder/parameter mismatch in " ++ String.ofList m.sql
    ++ "\n  left: " ++ toString m.found ++ "\n right: " ++ toString m.given

namespace Fragment

def make (sql : List Char) (params : List (List Char)) : Except Mismatch Fragment :=
  if h : placeholders sql = params.length then .ok ⟨sql, params, h⟩
  else .error ⟨sql, placeholders sql, params.length⟩

/-- Changes the text around the parameters; the new text needs as many placeholders. -/
def mapText (f : Fragment) (g : List Char → List Char) : Except Mismatch Fragment :=
  make (g f.sql) f.params

end Fragment

def separated (sep : List Char) : List (List Char) → List Char
  | [] => []
  | item :: items => item ++ items.flatMap (sep ++ ·)

/-- What is shown of characters holds of the literal that is written with them. -/
theorem of_literal {P : List Char → Prop} {chars : List Char} (h : P chars) :
    P (String.ofList chars).toList := by
  rwa [String.toList_ofList]

theorem placeholders_literal {chars : List Char} {n : Nat} (h : placeholders chars = n) :
    placeholders (String.ofList chars).toList = n :=
  of_literal (P := (placeholders · = n)) h

theorem placeholders_append (a b : List Char) :
    placeholders (a ++ b) = placeholders a + placeholders b :=
  List.count_append

theorem placeholders_cons_of_ne {c : Char} (h : c ≠ '?') (a : List Char) :
    placeholders (c :: a) = placeholders a :=
  List.count_cons_of_ne h

/-- A separator without placeholders leaves the count to the items. -/
theorem placeholders_separated {sep : List Char} (h : placeholders sep = 0)
    (items : List (List Char)) :
    placeholders (separated sep items) = placeholders items.flatten := by
  have behind : ∀ items : List (List Char),
      placeholders (items.flatMap (sep ++ ·)) = placeholders items.flatten := by
    intro items
    induction items with
    | nil => rfl
    | cons item items ih => simp [placeholders_append, h, ih]
  cases items with
  | nil => rfl
  | cons item items =>
    rw [separated, List.flatten_cons, placeholders_append, placeholders_append, behind]

end TagQuery.Sql
