import TagQuery.Proofs.Recall
import TagQuery.Proofs.Separation

/-! Without leniency a searcher makes every clause exact once the line is read. A `$` does the same
to one clause while it is read. Main statement: a strict search is the lenient search for the line
with a `$` in front of each of its parts. -/
namespace TagQuery

namespace Query

/-- The text with a `$` behind each separator that stands outside quotes. -/
def dollarsBehind (quoted : Bool) : List Char → List Char
  | [] => []
  | c :: text =>
    if !quoted && Text.isSeparator c then c :: '$' :: dollarsBehind quoted text
    else c :: dollarsBehind (quoted != (c == '"')) text

/-- The line with a `$` in front of each of its parts. -/
def dollared (line : List Char) : List Char :=
  '$' :: dollarsBehind false line

theorem dollarsBehind_separator {s : Char} (h : Text.isSeparator s = true) (text : List Char) :
    dollarsBehind false (s :: text) = s :: dollared text := by
  simp [dollarsBehind, dollared, h]

/-- Up to the first open separator there is nothing to add. -/
theorem dollarsBehind_unbroken {quoted : Bool} {front : List Char} (h : Unbroken quoted front)
    (rest : List Char) :
    dollarsBehind quoted (front ++ rest) = front ++ dollarsBehind (quotedAfter quoted front) rest := by
  induction front generalizing quoted with
  | nil => rfl
  | cons c front ih =>
    obtain ⟨inside, whole⟩ := unbroken_cons.mp h
    have goes : (!quoted && Text.isSeparator c) = false := by
      cases separator : Text.isSeparator c with
      | false => simp
      | true => simp [inside separator]
    rw [List.cons_append, dollarsBehind, if_neg (by simp [goes]), ih whole]
    rfl

theorem dollared_of_unbroken {line : List Char} (h : Unbroken false line) :
    dollared line = '$' :: line := by
  have whole := dollarsBehind_unbroken h []
  simp only [List.append_nil, dollarsBehind] at whole
  rw [dollared, whole]

theorem dollared_append {front : List Char} {s : Char} (rest : List Char)
    (h : Unbroken false front) (closed : quotedAfter false front = false)
    (separator : Text.isSeparator s = true) :
    dollared (front ++ s :: rest) = ('$' :: front) ++ s :: dollared rest := by
  rw [dollared, dollarsBehind_unbroken h, closed, dollarsBehind_separator separator]
  rfl

/-- A `$` in front of a line of one part makes its clause exact and changes nothing else. -/
theorem read_dollar (holes : Bool) {line : List Char} (h : Unbroken false line) :
    read holes ('$' :: line) = (read holes line).map (·.setExact true) := by
  have fed : Draft.feed holes {} '$' = Draft.modified {} false true := by cases holes <;> rfl
  rw [read_modifier holes fed (by decide +kernel) (by decide) (by decide) h]
  simp [Clause.setExact]

/-- The marked line has the clauses of the line, all of them exact. -/
theorem read_dollared (holes : Bool) (line : List Char) :
    read holes (dollared line) = (read holes line).map (·.setExact true) := by
  induction line using parts_induction with
  | one line whole => rw [dollared_of_unbroken whole, read_dollar holes whole]
  | more front s rest whole closed separator ih =>
    -- the `$` of the first part leaves no quote open, so the parts are read apart as before
    rw [dollared_append rest whole closed separator,
      read_append_closed holes (dollared rest) (a := '$' :: front) closed separator,
      read_append_closed holes rest closed separator, read_dollar holes whole, ih, List.map_append]

end Query

namespace Searcher

/-- Strictness is a `$` before every clause: a searcher that is not lenient makes of a line the
statement that a lenient one makes of the marked line, if wildcards mean the same to both. -/
theorem compile_strict {strict lenient : Options} (hs : strict.lenient = false)
    (hl : lenient.lenient = true) (same : strict.wildcards = lenient.wildcards) {s s' : Searcher}
    (reached : s.Reached strict) (reached' : s'.Reached lenient) (line : List Char) :
    (s.compile line).value.statement = (s'.compile (Query.dollared line)).value.statement := by
  rw [reached.compile_value, reached'.compile_value, Query.read_dollared, same]
  simp [tighten, hs, hl]

/-- An open separator, a quoted one, a clause with both modifiers and one that is only a namespace. -/
private def mixedLine : List Char :=
  ['Σ', ' ', '"', 'b', ' ', 'c', '"', ',', '-', '$', 'd', ':', 'e', ',', ',', 'f', ':']

theorem compile_strict_mixed :
    Query.dollared mixedLine =
      ['$', 'Σ', ' ', '$', '"', 'b', ' ', 'c', '"', ',', '$', '-', '$', 'd', ':', 'e', ',', '$',
        ',', '$', 'f', ':'] ∧
      ((new { lenient := false }).compile mixedLine).value.statement =
        ((new {}).compile (Query.dollared mixedLine)).value.statement :=
  ⟨by decide, compile_strict (by rfl) (by rfl) (by rfl) .new .new mixedLine⟩

end Searcher

end TagQuery
