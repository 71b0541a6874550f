/-! White space, trimming, words, lines and letter case of script text. A text is handled as
the list of its characters, so every operation here is a structural recursion on that list. -/

namespace MenuScript.Text

/-- The characters with the Unicode property White_Space. -/
def isSpace (c : Char) : Bool :=
  let n := c.toNat
  (0x09 ≤ n && n ≤ 0x0D) || n == 0x20 || n == 0x85 || n == 0xA0 || n == 0x1680 ||
    (0x2000 ≤ n && n ≤ 0x200A) || n == 0x2028 || n == 0x2029 || n == 0x202F || n == 0x205F ||
    n == 0x3000

def dropEndWhile (p : Char → Bool) (s : List Char) : List Char :=
  (s.reverse.dropWhile p).reverse

def trim (s : List Char) : List Char :=
  dropEndWhile isSpace (s.dropWhile isSpace)

/-- `words`, with the characters of the word being read, newest first. -/
def wordsFrom (current : List Char) : List Char → List (List Char)
  | [] => if current.isEmpty then [] else [current.reverse]
  | c :: rest =>
    if isSpace c then
      if current.isEmpty then wordsFrom [] rest else current.reverse :: wordsFrom [] rest
    else wordsFrom (c :: current) rest

/-- The maximal runs of characters that are not white space, in order. -/
def words (s : List Char) : List (List Char) := wordsFrom [] s

/-- A finished line, given newest character first: one carriage return before the line feed
belongs to the line end. -/
def endedLine : List Char → List Char
  | '\r' :: rest => rest.reverse
  | current => current.reverse

/-- `lines`, with the characters of the line being read, newest first. -/
def linesFrom (current : List Char) : List Char → List (List Char)
  | [] => if current.isEmpty then [] else [current.reverse]
  | c :: rest =>
    if c = '\n' then endedLine current :: linesFrom [] rest else linesFrom (c :: current) rest

/-- The physical lines of a text. A line ends at a line feed, with or without a carriage
return before it; what follows the last line feed is a line only if it is not empty. -/
def lines (s : List Char) : List (List Char) := linesFrom [] s

/-- Equality that takes each ASCII letter and its other case for the same. -/
def sameLetters (s t : List Char) : Bool := s.map Char.toLower == t.map Char.toLower

end MenuScript.Text

namespace MenuScript

def trimmed (s : String) : String := String.ofList (Text.trim s.toList)

def isBlankText (s : String) : Bool := s.toList.all Text.isSpace

def wordsOf (s : String) : List String := (Text.words s.toList).map String.ofList

def linesOf (s : String) : List String := (Text.lines s.toList).map String.ofList

def sameText (s t : String) : Bool := Text.sameLetters s.toList t.toList

/-- ASCII letters in upper case, everything else as it is. -/
def upperCased (s : String) : String := String.ofList (s.toList.map Char.toUpper)

/-- The texts one after another, separated by single spaces. -/
def spaced (parts : List String) : String := " ".intercalate parts

@[simp] theorem spaced_singleton (word : String) : spaced [word] = word :=
  String.intercalate_singleton

end MenuScript
