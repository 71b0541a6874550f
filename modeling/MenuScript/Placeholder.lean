import MenuScript.Text

/-! Placeholders: names in braces that stand for the text of a value. A text is read once from
left to right, so what is inserted is never read again. -/

namespace MenuScript.Placeholder

/-- Replaces placeholders by `meaning`. An opening brace starts a placeholder if a character other
than the closing brace follows and a closing brace comes later; the name reaches to the first
such brace. The state is the name being read, newest character first. -/
def scan (meaning : List Char → List Char) : Option (List Char) → List Char → List Char
  | none, [] => []
  | some name, [] => '\x7b' :: name.reverse
  | none, c :: rest =>
    if c = '\x7b' then scan meaning (some []) rest else c :: scan meaning none rest
  | some name, c :: rest =>
    if c = '\x7d' then
      if name.isEmpty then '\x7b' :: '\x7d' :: scan meaning none rest
      else meaning name.reverse ++ scan meaning none rest
    else scan meaning (some (c :: name)) rest

def resolve (meaning : String → String) (text : String) : String :=
  String.ofList (scan (fun name => (meaning (String.ofList name)).toList) none text.toList)

end MenuScript.Placeholder
