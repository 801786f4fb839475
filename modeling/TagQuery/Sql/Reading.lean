/-! Statement text as a reader meets it: its placeholders, its sources of rows, and the levels of
its expressions. -/
namespace TagQuery.Sql

inductive Mark where
  | placeholder
  /-- The end of an expression of this depth. -/
  | level (depth : Nat)
  /-- The end of a table or sub-query from which rows are taken. -/
  | source
  deriving DecidableEq, Repr

/-- An expression that was read: the marks in it, last first, and its depth, which is the greatest
of its levels. -/
structure Reading where
  marks : List Mark
  depth : Nat
  level_le : ∀ d, Mark.level d ∈ marks → d ≤ depth
  level_depth : depth = 0 ∨ Mark.level depth ∈ marks

namespace Reading

def nothing : Reading := ⟨[], 0, by simp, by simp⟩

def placeholder : Reading := ⟨[.level 1, .placeholder], 1, by simp, by simp⟩

def column : Reading := ⟨[.level 1], 1, by simp, by simp⟩

def qualified : Reading := ⟨[.level 2, .level 1, .level 1], 2, by simp, by simp⟩

def above (r : Reading) : Reading where
  marks := .level (r.depth + 1) :: r.marks
  depth := r.depth + 1
  level_le d h := by
    rcases List.mem_cons.mp h with same | below
    · cases same
      exact Nat.le_refl _
    · exact Nat.le_succ_of_le (r.level_le d below)
  level_depth := .inr List.mem_cons_self

@[simp] theorem depth_above (r : Reading) : r.above.depth = r.depth + 1 := rfl

/-- Two expressions side by side, with nothing that joins them. -/
def beside (a b : Reading) : Reading where
  marks := b.marks ++ a.marks
  depth := max a.depth b.depth
  level_le d h := by
    rcases List.mem_append.mp h with right | left
    · exact Nat.le_trans (b.level_le d right) (Nat.le_max_right _ _)
    · exact Nat.le_trans (a.level_le d left) (Nat.le_max_left _ _)
  level_depth := by
    have left := a.level_depth
    have right := b.level_depth
    rw [List.mem_append]
    rcases Nat.le_total a.depth b.depth with le | le
    · rw [Nat.max_eq_right le]
      exact right.imp_right .inl
    · rw [Nat.max_eq_left le]
      exact left.imp_right .inr

@[simp] theorem depth_beside (a b : Reading) : (a.beside b).depth = max a.depth b.depth := rfl

def both (a b : Reading) : Reading :=
  (a.beside b).above

@[simp] theorem depth_both (a b : Reading) : (a.both b).depth = max a.depth b.depth + 1 := rfl

/-- Expressions that one operation joins from the left. -/
def chain : List Reading → Reading
  | [] => nothing
  | r :: rs => rs.foldl both r

/-- The comparison with a pattern, and that with the missing value. -/
def like (r : Reading) : Reading := r.both placeholder
def isNull (r : Reading) : Reading := r.above

end Reading

/-- The offset of the placeholder with `n` others before it, counted from `start`. -/
def placeholderOffset (start : Nat) : Nat → List Char → Nat
  | _, [] => start
  | n, c :: cs =>
    if c == '?' then
      match n with
      | 0 => start
      | n + 1 => placeholderOffset (start + 1) n cs
    else placeholderOffset (start + 1) n cs

end TagQuery.Sql
