import TagQuery.Text.CasedTable
import TagQuery.Text.LowercaseTable

/-! Lowercasing of whole texts by the full Unicode mapping. A capital sigma that ends a word
becomes the final form; every other character is mapped without regard to its neighbours. -/
namespace TagQuery.Text

/-- The lowercase of one character outside any context. Only U+0130 gives two characters. -/
def lowerChar (c : Char) : List Char :=
  if c.toNat < 0x80 then [c.toLower]
  else if c.toNat == 0x130 then ['i', Char.ofNat 0x307]
  else [CaseRange.lookup lowercaseTable c]

/-- Whether the first character that case mapping does not skip is cased. -/
def leadsCased (cs : List Char) : Bool :=
  match cs.dropWhile isCaseIgnorable with
  | c :: _ => isCased c
  | [] => false

/-- The lowercase of `c` between `before`, nearest character first, and `after`. -/
def lowerAt (before : List Char) (c : Char) (after : List Char) : List Char :=
  if c == 'Σ' then [if leadsCased before && !leadsCased after then 'ς' else 'σ']
  else lowerChar c

/-- Lowercases the rest of a text, given what came before and what is already written,
both in reverse. -/
def lowercaseFrom (before written : List Char) : List Char → List Char
  | [] => written.reverse
  | c :: after => lowercaseFrom (c :: before) ((lowerAt before c after).reverse ++ written) after

def lowercase (text : List Char) : List Char :=
  lowercaseFrom [] [] text

end TagQuery.Text
