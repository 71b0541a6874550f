/-! A place in a YAML text: the characters that follow it, and how far it is from the start of the
text, in bytes, and of the line, in characters. -/

namespace MenuScript.Yaml

def isBlank (c : Char) : Bool := c == ' ' || c == '\t'

def isBreak (c : Char) : Bool :=
  c == '\n' || c == '\r' || c == '\u0085' || c == '\u2028' || c == '\u2029'

/-- The characters of anchors, tag handles and directive names. -/
def isWordChar (c : Char) : Bool := c.isAlphanum || c == '_' || c == '-'

def isAllowed (c : Char) : Bool :=
  let n := c.toNat
  n == 0x09 || n == 0x0A || n == 0x0D || (0x20 ≤ n && n ≤ 0x7E) || n == 0x85 ||
    (0xA0 ≤ n && n ≤ 0xD7FF) || (0xE000 ≤ n && n ≤ 0xFFFD) || 0x10000 ≤ n

def byteCount (s : List Char) : Nat := s.foldl (fun n c => n + c.utf8Size) 0

structure Cursor where
  rest : List Char
  /-- Number of bytes before this place. -/
  index : Nat := 0
  line : Nat := 0
  column : Nat := 0

namespace Cursor

def ahead (c : Cursor) (k : Nat) : Option Char := c.rest[k]?

def sees (c : Cursor) (k : Nat) (ch : Char) : Bool := c.ahead k == some ch

def atEnd (c : Cursor) : Bool := c.rest.isEmpty

def blankAt (c : Cursor) (k : Nat) : Bool := (c.ahead k).any isBlank

def breakAt (c : Cursor) (k : Nat) : Bool := (c.ahead k).any isBreak

/-- Whether a line end, or the end of the text, stands `k` places ahead. -/
def lineEndAt (c : Cursor) (k : Nat) : Bool := (c.ahead k).all isBreak

/-- Whether nothing but white space, or the end of the text, stands `k` places ahead. -/
def gapAt (c : Cursor) (k : Nat) : Bool := (c.ahead k).all fun ch => isBlank ch || isBreak ch

def skip (c : Cursor) (n : Nat) : Cursor :=
  { c with
    rest := c.rest.drop n
    index := c.index + byteCount (c.rest.take n)
    column := c.column + n }

/-- The characters up to the first that does not satisfy `p`, which must not be line ends. -/
def takeWhile (c : Cursor) (p : Char → Bool) : List Char × Cursor :=
  let taken := c.rest.takeWhile p
  (taken, c.skip taken.length)

def skipWhile (c : Cursor) (p : Char → Bool) : Cursor := (c.takeWhile p).2

def nextLine (c : Cursor) (n : Nat) : Cursor :=
  ⟨c.rest.drop n, c.index + byteCount (c.rest.take n), c.line + 1, 0⟩

/-- Takes a line end. All but the Unicode separators count as a line feed. -/
def takeBreak? (c : Cursor) : Option (Char × Cursor) :=
  match c.rest with
  | [] => none
  | ch :: _ =>
    if ch == '\r' && c.sees 1 '\n' then some ('\n', c.nextLine 2)
    else if ch == '\u2028' || ch == '\u2029' then some (ch, c.nextLine 1)
    else if isBreak ch then some ('\n', c.nextLine 1)
    else none

/-- Goes past blanks and a comment to the end of the line, and past that. Nothing else may stand
there. -/
def finishLine? (c : Cursor) : Option Cursor :=
  let c := c.skipWhile isBlank
  let c := if c.sees 0 '#' then c.skipWhile (!isBreak ·) else c
  if c.atEnd then some c else (c.takeBreak?).map (·.2)

/-- Whether a mark that starts or ends a document stands at the start of the line here. -/
def atDocumentMark (c : Cursor) : Bool :=
  let mark (ch : Char) : Bool := c.sees 0 ch && c.sees 1 ch && c.sees 2 ch
  c.column == 0 && (mark '-' || mark '.') && c.gapAt 3

end Cursor

end MenuScript.Yaml
