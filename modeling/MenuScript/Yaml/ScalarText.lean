import MenuScript.Uuid
import MenuScript.Yaml.Cursor

/-! The text of YAML scalars in each of their styles: plain, quoted, and in blocks. Each reader
starts at the scalar and gives its text and the place after it, or nothing if it is ill formed. The
number of steps is bounded by the number of characters that are left. -/

namespace MenuScript.Yaml

/-- White space met inside a scalar, of which it is not yet known how much is kept. Characters are
in order. -/
structure Pending where
  blanks : List Char := []
  /-- The first line end. -/
  leading : List Char := []
  /-- The line ends after it. -/
  trailing : List Char := []
  newLine : Bool := false

/-- Line ends between two lines of text: one becomes a space, of several the first is dropped. -/
def folded (leading trailing : List Char) : List Char :=
  if leading.head? == some '\n' then if trailing.isEmpty then [' '] else trailing
  else leading ++ trailing

def Pending.joined (p : Pending) : List Char :=
  if p.newLine then folded p.leading p.trailing else p.blanks

/-- Goes past blanks and line ends. At columns left of `margin` a tab may not start a line. -/
def takeSpace (margin : Nat) : Nat → Pending → Cursor → Option (Pending × Cursor)
  | 0, p, c => some (p, c)
  | fuel + 1, p, c =>
    match c.ahead 0 with
    | none => some (p, c)
    | some ch =>
      if isBlank ch then
        if p.newLine && c.column < margin && ch == '\t' then none
        else
          takeSpace margin fuel (if p.newLine then p else { p with blanks := p.blanks ++ [ch] })
            (c.skip 1)
      else
        match c.takeBreak? with
        | none => some (p, c)
        | some (b, c) =>
          takeSpace margin fuel
            (if p.newLine then { p with trailing := p.trailing ++ [b] }
              else { blanks := [], leading := [b], trailing := [], newLine := true }) c

namespace Plain

/-- The characters that end a plain scalar inside brackets. -/
def isFlowMark (ch : Char) : Bool :=
  ch == ',' || ch == '[' || ch == ']' || ch == '\x7b' || ch == '\x7d'

/-- The characters of a plain scalar up to white space or a mark that ends it. Inside brackets, a
colon before a bracket or a comma is an error. -/
def takePiece (inFlow : Bool) : Nat → List Char → Cursor → Option (List Char × Cursor)
  | 0, piece, c => some (piece.reverse, c)
  | fuel + 1, piece, c =>
    match c.ahead 0 with
    | none => some (piece.reverse, c)
    | some ch =>
      if c.gapAt 0 then some (piece.reverse, c)
      else if inFlow && ch == ':' && (c.ahead 1).any (fun n => isFlowMark n || n == '?') then none
      else if (ch == ':' && c.gapAt 1) || (inFlow && isFlowMark ch) then some (piece.reverse, c)
      else takePiece inFlow fuel (ch :: piece) (c.skip 1)

/-- Reads pieces and the white space between them, as long as the lines stay right of `margin`. The
flag of the answer tells whether the scalar ends at the start of a line. -/
def readFrom (inFlow : Bool) (margin : Nat) :
    Nat → List Char → Pending → Cursor → Option (List Char × Bool × Cursor)
  | 0, text, p, c => some (text, p.newLine, c)
  | fuel + 1, text, p, c =>
    if c.atDocumentMark || c.sees 0 '#' then some (text, p.newLine, c)
    else do
      let (piece, c) ← takePiece inFlow (c.rest.length + 1) [] c
      let (text, p) := if piece.isEmpty then (text, p) else (text ++ p.joined ++ piece, {})
      if !(c.blankAt 0 || c.breakAt 0) then return (text, p.newLine, c)
      let (p, c) ← takeSpace margin (c.rest.length + 1) p c
      if !inFlow && c.column < margin then return (text, p.newLine, c)
      readFrom inFlow margin fuel text p c

def read (inFlow : Bool) (margin : Nat) (c : Cursor) : Option (List Char × Bool × Cursor) :=
  readFrom inFlow margin (c.rest.length + 1) [] {} c

end Plain

namespace Quoted

def readCode? (digits : Nat) (c : Cursor) : Option (Char × Cursor) := do
  let code := c.rest.take digits
  if code.length < digits then none
  else
    let values ← code.mapM Uuid.hexDigit?
    let n := values.foldl (fun n d => 16 * n + d) 0
    if (0xD800 ≤ n ∧ n ≤ 0xDFFF) ∨ 0x10FFFF < n then none
    else some (Char.ofNat n, c.skip digits)

def readEscape? (c : Cursor) : Option (Char × Cursor) := do
  let ch ← c.ahead 0
  let c := c.skip 1
  let one (n : Nat) : Option (Char × Cursor) := some (Char.ofNat n, c)
  match ch with
  | '0' => one 0
  | 'a' => one 7
  | 'b' => one 8
  | 't' | '\t' => one 9
  | 'n' => one 10
  | 'v' => one 11
  | 'f' => one 12
  | 'r' => one 13
  | 'e' => one 27
  | ' ' => one 32
  | '"' => one 34
  | '/' => one 47
  | '\\' => one 92
  | 'N' => one 0x85
  | '_' => one 0xA0
  | 'L' => one 0x2028
  | 'P' => one 0x2029
  | 'x' => readCode? 2 c
  | 'u' => readCode? 4 c
  | 'U' => readCode? 8 c
  | _ => none

/-- The characters of a quoted scalar up to white space or its closing quote. The flag of the
answer tells whether an escaped line end came last. -/
def takePiece (single : Bool) : Nat → List Char → Cursor → Option (List Char × Bool × Cursor)
  | 0, piece, c => some (piece.reverse, false, c)
  | fuel + 1, piece, c =>
    match c.ahead 0 with
    | none => some (piece.reverse, false, c)
    | some ch =>
      if c.gapAt 0 then some (piece.reverse, false, c)
      else if single && ch == '\'' && c.sees 1 '\'' then
        takePiece single fuel ('\'' :: piece) (c.skip 2)
      else if ch == (if single then '\'' else '"') then some (piece.reverse, false, c)
      else if !single && ch == '\\' then
        match (c.skip 1).takeBreak? with
        | some (_, c) => some (piece.reverse, true, c)
        | none =>
          match readEscape? (c.skip 1) with
          | some (e, c) => takePiece single fuel (e :: piece) c
          | none => none
      else takePiece single fuel (ch :: piece) (c.skip 1)

def readFrom (single : Bool) : Nat → List Char → Cursor → Option (List Char × Cursor)
  | 0, _, _ => none
  | fuel + 1, text, c =>
    if c.atDocumentMark || c.atEnd then none
    else do
      let (piece, escaped, c) ← takePiece single (c.rest.length + 1) [] c
      let text := text ++ piece
      if c.sees 0 (if single then '\'' else '"') then return (text, c.skip 1)
      let (p, c) ← takeSpace 0 (c.rest.length + 1) { newLine := escaped } c
      readFrom single fuel (text ++ p.joined) c

def read (single : Bool) (c : Cursor) : Option (List Char × Cursor) :=
  readFrom single (c.rest.length + 2) [] (c.skip 1)

end Quoted

namespace Block

/-- What becomes of the line ends at the end of a block. -/
inductive Chomp where
  | strip
  | clip
  | keep
  deriving DecidableEq

def readChomp (c : Cursor) : Chomp × Cursor :=
  if c.sees 0 '+' then (.keep, c.skip 1)
  else if c.sees 0 '-' then (.strip, c.skip 1)
  else (.clip, c)

/-- Reads the digit that tells how far a block is indented; zero is refused. -/
def readIndent? (c : Cursor) : Option (Nat × Cursor) :=
  match c.ahead 0 with
  | some ch =>
    if ch.isDigit then if ch == '0' then none else some (ch.toNat - 48, c.skip 1)
    else some (0, c)
  | none => some (0, c)

def readHeader? (c : Cursor) : Option (Chomp × Nat × Cursor) :=
  if c.sees 0 '+' || c.sees 0 '-' then do
    let (chomp, c) := readChomp c
    let (indent, c) ← readIndent? c
    return (chomp, indent, c)
  else do
    let (indent, c) ← readIndent? c
    if indent = 0 then return (.clip, 0, c)
    let (chomp, c) := readChomp c
    return (chomp, indent, c)

/-- Goes past empty lines. Spaces count as indentation up to column `indent`, or without limit if
that is zero; a tab may not stand among them. Gives the line ends and the greatest column. -/
def takeEmptyLines (indent : Nat) :
    Nat → List Char → Nat → Cursor → Option (List Char × Nat × Cursor)
  | 0, breaks, widest, c => some (breaks, widest, c)
  | fuel + 1, breaks, widest, c =>
    let spaces := (c.rest.takeWhile (· == ' ')).length
    let c := c.skip (if indent = 0 then spaces else min spaces (indent - c.column))
    let widest := max widest c.column
    if (indent = 0 || c.column < indent) && c.sees 0 '\t' then none
    else
      match c.takeBreak? with
      | none => some (breaks, widest, c)
      | some (b, c) => takeEmptyLines indent fuel (breaks ++ [b]) widest c

/-- Reads the lines of a block at column `indent`. `leading` is the last line end and `trailing`
the empty lines after it. -/
def readLines (literal : Bool) (indent : Nat) :
    Nat → List Char → List Char → List Char → Bool → Cursor →
    Option (List Char × List Char × List Char × Cursor)
  | 0, text, leading, trailing, _, c => some (text, leading, trailing, c)
  | fuel + 1, text, leading, trailing, afterBlank, c =>
    if c.column != indent || c.atEnd then some (text, leading, trailing, c)
    else do
      let startsBlank := c.blankAt 0
      let kept :=
        if !literal && leading.head? == some '\n' && !afterBlank && !startsBlank then
          if trailing.isEmpty then [' '] else []
        else leading
      let (line, c) := c.takeWhile (!isBreak ·)
      let (leading', c) := match c.takeBreak? with
        | some (b, c) => ([b], c)
        | none => ([], c)
      let (trailing', _, c) ← takeEmptyLines indent (c.rest.length + 1) [] 0 c
      readLines literal indent fuel (text ++ kept ++ trailing ++ line) leading' trailing'
        startsBlank c

/-- Reads a block scalar from its indicator on; `parent` is the column of what it belongs to, or
minus one. -/
def read (literal : Bool) (parent : Int) (c : Cursor) : Option (List Char × Cursor) := do
  let (chomp, given, c) ← readHeader? (c.skip 1)
  let c ← c.finishLine?
  let given := if given = 0 then 0 else if 0 ≤ parent then parent.toNat + given else given
  let (trailing, widest, c) ← takeEmptyLines given (c.rest.length + 1) [] 0 c
  let indent := if given = 0 then max (max widest (parent + 1).toNat) 1 else given
  let (text, leading, trailing, c) ←
    readLines literal indent (c.rest.length + 1) [] [] trailing false c
  let tail := match chomp with
    | .strip => []
    | .clip => leading
    | .keep => leading ++ trailing
  return (text ++ tail, c)

end Block

end MenuScript.Yaml
