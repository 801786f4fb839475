/-! Texts measured in bytes of UTF-8. -/
namespace TagQuery.Text

def utf8Length (text : List Char) : Nat :=
  text.foldl (fun n c => n + c.utf8Size) 0

end TagQuery.Text
