import TagQuery.Text.FoldTable

/-! Comparison of characters up to case. -/
namespace TagQuery.Text

def fold (c : Char) : Char :=
  if c.toNat < 0x80 then c.toLower else CaseRange.lookup foldTable c

/-- Two texts that differ only in the case of ASCII letters. -/
def eqIgnoringAsciiCase (a b : List Char) : Bool :=
  a.map Char.toLower == b.map Char.toLower

end TagQuery.Text
