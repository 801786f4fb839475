/-! Tables of case mappings: runs of code points that all move by one offset. -/
namespace TagQuery.Text

/-- Every `step`-th code point from `first` to `last` maps to itself plus `offset`. -/
structure CaseRange where
  first : Nat
  last : Nat
  step : Nat
  offset : Int

namespace CaseRange

def covers (r : CaseRange) (n : Nat) : Bool :=
  r.first ≤ n && n ≤ r.last && (n - r.first) % r.step == 0

def shift (r : CaseRange) (n : Nat) : Char :=
  Char.ofNat (n + r.offset).toNat

/-- The image of a character; one that no range covers stays as it is. -/
def lookup (table : List CaseRange) (c : Char) : Char :=
  match table.find? (·.covers c.toNat) with
  | some r => r.shift c.toNat
  | none => c

end CaseRange

/-- Whether one of the closed intervals holds the code point. -/
def inIntervals (table : List (Nat × Nat)) (c : Char) : Bool :=
  table.any fun i => i.1 ≤ c.toNat && c.toNat ≤ i.2

end TagQuery.Text
