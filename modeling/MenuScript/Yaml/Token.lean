import MenuScript.Yaml.ScalarText

/-! The tokens of a YAML text. Indentation becomes tokens of its own, and a key that is only
recognised by the colon after it gets its token in front of where it started. -/

namespace MenuScript.Yaml

inductive Style where
  | plain
  | quoted
  | literal
  | folded
  deriving DecidableEq, Repr

inductive Token where
  | versionDirective (major minor : Nat)
  | tagDirective (handle meaning : String)
  | documentStart
  | documentEnd
  | blockSequenceStart
  | blockMappingStart
  | blockEnd
  | flowSequenceStart
  | flowSequenceEnd
  | flowMappingStart
  | flowMappingEnd
  | blockEntry
  | flowEntry
  | key
  | value
  | reference (name : String)
  | anchor (name : String)
  | tag (handle suffix : String)
  | scalar (style : Style) (text : String)
  deriving DecidableEq, Repr

structure PossibleKey where
  /-- Whether something else than a key would break the indentation here. -/
  required : Bool
  before : Nat
  index : Nat
  line : Nat
  column : Nat

structure Scan where
  cursor : Cursor
  tokens : Array Token := #[]
  flowLevel : Nat := 0
  /-- Column of the innermost block, and of those around it. -/
  indent : Int := -1
  indents : List Int := []
  keyAllowed : Bool := true
  /-- The possible key of each level of brackets, innermost first. -/
  keys : List (Option PossibleKey) := [none]

namespace Scan

def inFlow (s : Scan) : Bool := s.flowLevel != 0

def push (s : Scan) (t : Token) : Scan := { s with tokens := s.tokens.push t }

/-- Puts a token in front of those from number `n` on. -/
def insert (s : Scan) (n : Nat) (t : Token) : Scan :=
  { s with tokens := (s.tokens.take n).push t ++ s.tokens.drop n }

def take (s : Scan) (n : Nat) (t : Token) : Scan :=
  { s with cursor := s.cursor.skip n }.push t

/-- Goes past blanks, comments and line ends to the next token. A byte order mark may start a line
and counts as a column of it. Outside brackets a new line may start a key, and there a tab may not
stand in front of one. -/
def toToken : Nat → Scan → Scan
  | 0, s => s
  | fuel + 1, s =>
    let marked := s.cursor.column == 0 && s.cursor.sees 0 '\uFEFF'
    let c := if marked then s.cursor.skip 1 else s.cursor
    let tabs := s.inFlow || !s.keyAllowed
    let c := c.skipWhile fun ch => ch == ' ' || (tabs && ch == '\t')
    let c := if c.sees 0 '#' then c.skipWhile (!isBreak ·) else c
    match c.takeBreak? with
    | some (_, c) => toToken fuel { s with cursor := c, keyAllowed := s.keyAllowed || !s.inFlow }
    | none => { s with cursor := c }

/-- Longest key, in bytes, that is recognised by the colon after it. -/
def longestKey : Nat := 1024

/-- Whether what started at a possible key cannot be one any more: it has ended on another line or
is too long. -/
def isStale (s : Scan) (key : PossibleKey) : Bool :=
  key.line < s.cursor.line || key.index + longestKey < s.cursor.index

/-- Gives up the innermost possible key; a required one is an error. -/
def removeKey? (s : Scan) : Option Scan :=
  match s.keys with
  | some key :: rest => if key.required then none else some { s with keys := none :: rest }
  | _ => some s

def saveKey? (s : Scan) : Option Scan :=
  if s.keyAllowed then do
    let s ← s.removeKey?
    let key : PossibleKey :=
      { required := !s.inFlow && s.indent == s.cursor.column
        before := s.tokens.size
        index := s.cursor.index
        line := s.cursor.line
        column := s.cursor.column }
    return { s with keys := some key :: s.keys.tail }
  else some s

/-- Opens a block at a column right of the current one, with its token at number `n`. -/
def openBlock (s : Scan) (column : Nat) (n : Nat) (t : Token) : Scan :=
  if !s.inFlow && s.indent < column then
    { s with indent := column, indents := s.indent :: s.indents }.insert n t
  else s

/-- The blocks that stay open at `column`, and how many are closed. -/
def closedBlocks (column : Int) : Int → List Int → Nat × Int × List Int
  | indent, [] => (0, indent, [])
  | indent, outer :: rest =>
    if column < indent then
      let (n, r) := closedBlocks column outer rest
      (n + 1, r)
    else (0, indent, outer :: rest)

def closeBlocks (s : Scan) (column : Int) : Scan :=
  if s.inFlow then s
  else
    let (n, indent, indents) := closedBlocks column s.indent s.indents
    { s with indent, indents, tokens := s.tokens ++ Array.replicate n .blockEnd }

def readVersionNumber? (c : Cursor) : Option (Nat × Cursor) :=
  let (digits, c) := c.takeWhile Char.isDigit
  if digits.isEmpty || 9 < digits.length then none
  else some (digits.foldl (fun n d => 10 * n + (d.toNat - 48)) 0, c)

/-- Reads a tag handle: one exclamation mark, or a word between two of them. In a directive nothing
may come between. -/
def readHandle? (directive : Bool) (c : Cursor) : Option (List Char × Cursor) :=
  if c.sees 0 '!' then
    let (word, c) := (c.skip 1).takeWhile isWordChar
    if c.sees 0 '!' then some ('!' :: word ++ ['!'], c.skip 1)
    else if directive && !word.isEmpty then none
    else some ('!' :: word, c)
  else none

/-- The characters of a tag; some more may stand between angle brackets and in directives. -/
def isTagChar (wide : Bool) (ch : Char) : Bool :=
  isWordChar ch || ";/?:@&=+$.%!~*'()".toList.contains ch ||
    (wide && (ch == ',' || ch == '[' || ch == ']'))

/-- Reads a byte that is written as a percent sign and two hexadecimal digits. -/
def readByte? (c : Cursor) : Option (Nat × Cursor) :=
  if c.sees 0 '%' then do
    let high ← (← c.ahead 1) |> Uuid.hexDigit?
    let low ← (← c.ahead 2) |> Uuid.hexDigit?
    return (16 * high + low, c.skip 3)
  else none

/-- Reads the further bytes of a character, each of which carries six bits. -/
def readFurtherBytes? : Nat → Nat → Cursor → Option (Nat × Cursor)
  | 0, n, c => some (n, c)
  | k + 1, n, c => do
    let (byte, c) ← readByte? c
    if byte / 64 = 2 then readFurtherBytes? k (64 * n + byte % 64) c else none

/-- The character of a code that is held by `size` bytes. Bytes that no character is encoded by
become the replacement character. -/
def charOfBytes (size n : Nat) : Char :=
  if n.isValidChar && (Char.ofNat n).utf8Size == size then Char.ofNat n else '\uFFFD'

def readEscaped? (c : Cursor) : Option (Char × Cursor) := do
  let (byte, c) ← readByte? c
  let (further, high) ←
    if byte < 128 then some (0, byte)
    else if byte / 32 = 6 then some (1, byte % 32)
    else if byte / 16 = 14 then some (2, byte % 16)
    else if byte / 8 = 30 then some (3, byte % 8)
    else none
  let (n, c) ← readFurtherBytes? further high c
  return (charOfBytes (further + 1) n, c)

def readTagText? (wide : Bool) : Nat → List Char → Cursor → Option (List Char × Cursor)
  | 0, text, c => some (text.reverse, c)
  | fuel + 1, text, c =>
    match c.ahead 0 with
    | none => some (text.reverse, c)
    | some ch =>
      if !isTagChar wide ch then some (text.reverse, c)
      else if ch == '%' then
        match readEscaped? c with
        | some (e, c) => readTagText? wide fuel (e :: text) c
        | none => none
      else readTagText? wide fuel (ch :: text) (c.skip 1)

/-- The text of a tag, which a zero character ends. -/
def tagText (s : List Char) : String := String.ofList (s.takeWhile (· != '\x00'))

/-- Reads a tag: a full one in angle brackets, one with a handle, or one of its own. -/
def readTag? (inFlow : Bool) (c : Cursor) : Option (Token × Cursor) := do
  let fuel := c.rest.length + 1
  let (handle, suffix, c) ←
    if c.sees 1 '<' then do
      let (suffix, c) ← readTagText? true fuel [] (c.skip 2)
      if suffix.isEmpty || !c.sees 0 '>' then none
      else some ("", tagText suffix, c.skip 1)
    else do
      let (handle, c) ← readHandle? false c
      if 1 < handle.length && handle.getLast? == some '!' then
        let (suffix, c) ← readTagText? false fuel [] c
        if suffix.isEmpty then none else some (String.ofList handle, tagText suffix, c)
      else
        let (more, c) ← readTagText? false fuel [] c
        let suffix := tagText (handle.drop 1 ++ more)
        if suffix.isEmpty then some ("", "!", c) else some ("!", suffix, c)
  if c.gapAt 0 || (inFlow && c.sees 0 ',') then return (.tag handle suffix, c) else none

def readDirective? (c : Cursor) : Option (Token × Cursor) := do
  let (name, c) := c.takeWhile isWordChar
  if name.isEmpty || !c.gapAt 0 then none
  let (token, c) ←
    if name == "YAML".toList then do
      let (major, c) ← readVersionNumber? (c.skipWhile isBlank)
      if !c.sees 0 '.' then none
      let (minor, c) ← readVersionNumber? (c.skip 1)
      some (Token.versionDirective major minor, c)
    else if name == "TAG".toList then do
      let (handle, c) ← readHandle? true (c.skipWhile isBlank)
      if !c.blankAt 0 then none
      let (meaning, c) ← readTagText? true (c.rest.length + 1) [] (c.skipWhile isBlank)
      if meaning.isEmpty || !c.gapAt 0 then none
      some (Token.tagDirective (String.ofList handle) (tagText meaning), c)
    else none
  return (token, ← c.finishLine?)

def readName? (c : Cursor) : Option (String × Cursor) :=
  let (name, c) := c.takeWhile isWordChar
  if !name.isEmpty && (c.gapAt 0 || (c.ahead 0).any ("?:,]\x7d%@\x60".toList.contains ·)) then
    some (String.ofList name, c)
  else none

/-- A mark that ends what came before it at the start of a line. -/
def atMargin? (s : Scan) : Option Scan := do
  let s ← (s.closeBlocks (-1)).removeKey?
  return { s with keyAllowed := false }

def openFlow? (s : Scan) (t : Token) : Option Scan := do
  let s ← s.saveKey?
  return { s with flowLevel := s.flowLevel + 1, keys := none :: s.keys, keyAllowed := true }.take 1 t

def closeFlow? (s : Scan) (t : Token) : Option Scan := do
  let s ← s.removeKey?
  let s := if s.inFlow then { s with flowLevel := s.flowLevel - 1, keys := s.keys.tail } else s
  return { s with keyAllowed := false }.take 1 t

def flowEntry? (s : Scan) : Option Scan := do
  let s ← s.removeKey?
  return { s with keyAllowed := true }.take 1 .flowEntry

/-- A dash or question mark that opens an entry of a block. -/
def blockMark? (s : Scan) (block t : Token) (keyAllowed : Bool) : Option Scan := do
  if !s.inFlow && !s.keyAllowed then none
  let s ← (s.openBlock s.cursor.column s.tokens.size block).removeKey?
  return { s with keyAllowed }.take 1 t

/-- A colon that has no key before it on its line. -/
def bareValueMark? (s : Scan) : Option Scan := do
  if !s.inFlow && !s.keyAllowed then none
  let s := s.openBlock s.cursor.column s.tokens.size .blockMappingStart
  return { s with keyAllowed := !s.inFlow }.take 1 .value

/-- A colon, which may turn what came before it into a key. A key that is required must not have
become stale. -/
def valueMark? (s : Scan) : Option Scan :=
  match s.keys with
  | some key :: rest =>
    if s.isStale key then if key.required then none else s.bareValueMark?
    else
      let s := { s with keys := none :: rest }.insert key.before .key
      let s := s.openBlock key.column key.before .blockMappingStart
      some ({ s with keyAllowed := false }.take 1 .value)
  | _ => s.bareValueMark?

/-- Something that may be a key, or may stand in front of one. -/
def keyPart? (s : Scan) (read? : Cursor → Option (Token × Cursor)) : Option Scan := do
  let s ← s.saveKey?
  let (token, cursor) ← read? s.cursor
  return { s with cursor, keyAllowed := false }.push token

/-- A plain scalar; a key may follow it on a new line. -/
def plainScalar? (s : Scan) : Option Scan := do
  let s ← s.saveKey?
  let (text, newLine, cursor) ← Plain.read s.inFlow (s.indent + 1).toNat s.cursor
  return { s with cursor, keyAllowed := newLine }.push (.scalar .plain (String.ofList text))

def blockScalar? (s : Scan) (style : Style) : Option Scan := do
  let s ← s.removeKey?
  let (text, cursor) ← Block.read (style == .literal) s.indent s.cursor
  return { s with cursor, keyAllowed := true }.push (.scalar style (String.ofList text))

def startsPlain (s : Scan) : Bool :=
  let c := s.cursor
  let ordinary := !c.gapAt 0 &&
    !(c.ahead 0).any ("-?:,[]\x7b\x7d#&*!|>'\"%@\x60".toList.contains ·)
  ordinary || (c.sees 0 '-' && !c.blankAt 1) ||
    (!s.inFlow && (c.sees 0 '?' || c.sees 0 ':') && !c.gapAt 1)

/-- Reads the token at the cursor, of which the text has at least one more character. -/
def token? (s : Scan) : Option Scan := do
  let c := s.cursor
  if c.column == 0 && c.sees 0 '%' then
    let s ← s.atMargin?
    let (token, cursor) ← readDirective? (s.cursor.skip 1)
    return { s with cursor }.push token
  if c.atDocumentMark then
    let s ← s.atMargin?
    return s.take 3 (if c.sees 0 '-' then .documentStart else .documentEnd)
  match ← c.ahead 0 with
  | '[' => s.openFlow? .flowSequenceStart
  | '\x7b' => s.openFlow? .flowMappingStart
  | ']' => s.closeFlow? .flowSequenceEnd
  | '\x7d' => s.closeFlow? .flowMappingEnd
  | ',' => s.flowEntry?
  | '*' => s.keyPart? fun c => (readName? (c.skip 1)).map fun (name, c) => (.reference name, c)
  | '&' => s.keyPart? fun c => (readName? (c.skip 1)).map fun (name, c) => (.anchor name, c)
  | '!' => s.keyPart? (readTag? s.inFlow)
  | '\'' =>
    s.keyPart? fun c =>
      (Quoted.read true c).map fun (text, c) => (.scalar .quoted (String.ofList text), c)
  | '"' =>
    s.keyPart? fun c =>
      (Quoted.read false c).map fun (text, c) => (.scalar .quoted (String.ofList text), c)
  | ch =>
    if ch == '-' && c.gapAt 1 then s.blockMark? .blockSequenceStart .blockEntry true
    else if ch == '?' && (s.inFlow || c.gapAt 1) then
      s.blockMark? .blockMappingStart .key (!s.inFlow)
    else if ch == ':' && (s.inFlow || c.gapAt 1) then s.valueMark?
    else if ch == '|' && !s.inFlow then s.blockScalar? .literal
    else if ch == '>' && !s.inFlow then s.blockScalar? .folded
    else if s.startsPlain then s.plainScalar?
    else none

/-- Reads tokens to the end of the text. Every token takes at least one character, so the steps that
are left are never fewer than the characters. -/
def run? : Nat → Scan → Option (List Token)
  | 0, _ => none
  | fuel + 1, s => do
    let s := s.toToken (fuel + 1)
    let s := s.closeBlocks s.cursor.column
    if s.cursor.atEnd then
      let s ← s.atMargin?
      return s.tokens.toList
    else run? fuel (← s.token?)

end Scan

def tokens? (text : String) : Option (List Token) :=
  let s := text.toList
  if s.all isAllowed then Scan.run? (s.length + 1) { cursor := { rest := s } } else none

end MenuScript.Yaml
