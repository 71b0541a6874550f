import MenuScript.Number.WholeNumber
import MenuScript.ScriptError
import MenuScript.Statement

/-! Reading one line as a statement. The forms are tried in a fixed order and the first that fits
the whole line is taken; a line that fits none of them but has a colon is a function call. -/

namespace MenuScript.Statement

def isGap (c : Char) : Bool := c == ' ' || c == '\t'

def isNameChar (c : Char) : Bool := c.isAlphanum || c == '_'

def isPlain (c : Char) : Bool := c != '\x7b' && c != '\x7d'

/-- What follows `word` at the start of a text. -/
def after? : List Char → List Char → Option (List Char)
  | [], s => some s
  | c :: word, d :: s => if c = d then after? word s else none
  | _ :: _, [] => none

def gap? : List Char → Option (List Char)
  | [] => none
  | c :: s => if isGap c then some (s.dropWhile isGap) else none

def filled? (s : List Char) : Option (List Char) := if s.isEmpty then none else some s

/-- The longest run of characters satisfying `p`, if it is not empty, and what follows it. -/
def run? (p : Char → Bool) (s : List Char) : Option (List Char × List Char) :=
  (filled? (s.takeWhile p)).map fun w => (w, s.dropWhile p)

/-- A word that reaches to the end of the line. -/
def lastWord? (s : List Char) : Option (List Char) := if s.any isGap then none else filled? s

def keyword? (word : String) (statement : Statement) (s : List Char) : Option Statement :=
  if s = word.toList then some statement else none

def readIf (s : List Char) : Option Statement := do
  let s ← after? "if".toList s
  let s ← gap? s
  let s ← filled? s
  return .ifHolds (String.ofList s)

/-- The greatest count of a loop; a larger one stands for it. -/
def greatestCount : Nat := UInt64.size - 1

def readLoop (s : List Char) : Option Statement := do
  let s ← after? "loop".toList s
  let s ← gap? s
  let n ← Number.readNat? s
  return .loop (min n greatestCount)

/-- The player named between braces at the start of a text, and what follows the closing brace. -/
def target? : List Char → Option (List Char × List Char)
  | [] => none
  | c :: s =>
    if c = '\x7b' then
      match run? (· != '\x7d') s with
      | some (name, _ :: rest) => some (name, rest)
      | _ => none
    else none

def readCommand (s : List Char) : Option Statement := do
  let s ← after? "cmd:".toList s
  let (words, rest) ← run? isPlain (s.dropWhile isGap)
  let words := String.ofList (Text.trim words)
  match target? rest with
  | some (name, trailing) =>
    return .command ⟨words, some (String.ofList (Text.trim name)),
      String.ofList (Text.trim trailing)⟩
  | none => return .command ⟨words, none, String.ofList (Text.trim rest)⟩

/-- A menu and, after a gap, the player it is opened for. -/
def readOpen (s : List Char) : Option Statement := do
  let s ← after? "open:".toList s
  let (menu, rest) ← run? (!isGap ·) (s.dropWhile isGap)
  if rest.isEmpty then return .openMenu (String.ofList menu) none
  let target ← lastWord? (← gap? rest)
  return .openMenu (String.ofList menu) (some (String.ofList target))

def readText (mark : String) (statement : List Char → Statement) (s : List Char) :
    Option Statement := do
  let s ← after? mark.toList s
  let s ← filled? (s.dropWhile isGap)
  return statement s

/-- A keyword, a gap, a variable name, and what follows a further gap. -/
def variableThen? (word : String) (s : List Char) : Option (String × List Char) := do
  let s ← after? word.toList s
  let s ← gap? s
  let (name, s) ← run? isNameChar s
  let s ← gap? s
  return (String.ofList name, s)

def readAssign (s : List Char) : Option Statement := do
  let (name, s) ← variableThen? "set" s
  let value ← filled? s
  return .assign name (String.ofList value)

def readMath (s : List Char) : Option Statement := do
  let (name, s) ← variableThen? "math" s
  match s with
  | [] => none
  | c :: s =>
    let op ← MathOp.ofChar? c
    let s ← gap? s
    let operand ← filled? s
    return .math name op (String.ofList operand)

def readRandom (s : List Char) : Option Statement := do
  let (name, s) ← variableThen? "random" s
  let (least, s) ← run? (!isGap ·) s
  let greatest ← lastWord? (← gap? s)
  return .random name (String.ofList least) (String.ofList greatest)

def readDelay (s : List Char) : Option Statement := do
  let s ← after? "delay".toList s
  let millis ← lastWord? (← gap? s)
  return .delay (String.ofList millis)

def readCall (s : List Char) : Option Statement :=
  match s.dropWhile (· != ':') with
  | [] => none
  | _ :: rest =>
    some (.call (String.ofList (Text.trim (s.takeWhile (· != ':'))))
      ((Text.words rest).map String.ofList))

/-- The forms of a line, in the order in which they are tried. -/
def forms : List (List Char → Option Statement) :=
  [readIf,
    keyword? "else" .otherwise,
    keyword? "endif" .endIf,
    readLoop,
    keyword? "endloop" .endLoop,
    keyword? "break" .leaveLoop,
    keyword? "continue" .nextTurn,
    readCommand,
    readOpen,
    keyword? "close" .closeMenu,
    readText "msg:" fun s => .message (String.ofList s),
    readText "console:" fun s => .console (String.ofList s),
    readText "perm:" fun s => .permission (String.ofList (Text.trim s)),
    readAssign,
    readMath,
    readRandom,
    readDelay,
    readCall]

def read? (line : String) : Option Statement := forms.findSome? fun form => form line.toList

/-- Reads a line; a line of no form is an unknown command. -/
def read (line : String) : Except ScriptError Statement :=
  match read? line with
  | some statement => .ok statement
  | none => .error (.unknownCommand line)

end MenuScript.Statement
