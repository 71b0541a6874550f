import MenuScript.Config
import MenuScript.FileTree
import MenuScript.Text
import MenuScript.Uuid
import MenuScript.Yaml.Node

/-! Settings as a YAML document: the mapping under the key `script`. What is missing keeps its
default, keys that are not known are passed over, and a known key may stand only once. -/

namespace MenuScript

namespace Yaml

def readDigits? (base : Nat) (s : List Char) : Option Nat := do
  let digits ← s.mapM Uuid.hexDigit?
  if digits.isEmpty || digits.any (base ≤ ·) then none
  else some (digits.foldl (fun n d => base * n + d) 0)

/-- A magnitude: decimal digits without a leading zero, or digits of another base behind the mark
of that base. -/
def readMagnitude? : List Char → Option Nat
  | '0' :: 'x' :: digits => readDigits? 16 digits
  | '0' :: 'o' :: digits => readDigits? 8 digits
  | '0' :: 'b' :: digits => readDigits? 2 digits
  | '0' :: _ :: _ => none
  | digits => readDigits? 10 digits

def readWhole? : List Char → Option (Bool × Nat)
  | '-' :: s => (readMagnitude? s).map fun n => (true, n)
  | '+' :: s => (readMagnitude? s).map fun n => (false, n)
  | s => (readMagnitude? s).map fun n => (false, n)

def standardTag (kind : String) : String := "tag:yaml.org,2002:" ++ kind

/-- The text of a scalar that can be something else than a text: a plain one, or a literal block
that is tagged as being of that kind. -/
def untyped? (kind : String) : Node → Option String
  | .scalar _ _ .plain text => some text
  | .scalar _ (some tag) .literal text => if tag = standardTag kind then some text else none
  | _ => none

def readBool? (text : String) : Option Bool :=
  if ["true", "True", "TRUE"].contains text then some true
  else if ["false", "False", "FALSE"].contains text then some false
  else none

def isNullText (text : String) : Bool := ["null", "Null", "NULL", "~"].contains text

def scalarText? : Node → Option String
  | .scalar _ _ _ text => some text
  | _ => none

/-- The entries of a mapping with texts as keys; nothing at all is a mapping without entries. -/
def entries? (root : Node) : Node → Option (List (String × Node))
  | .mapping _ _ entries =>
    entries.mapM fun (key, value) => do
      return (← scalarText? (root.target key), root.target value)
  | .scalar _ _ .plain "" => some []
  | _ => none

/-- The value of a key that may stand at most once: none if it is missing, and no answer at all if
it is given twice. -/
def single? (entries : List (String × Node)) (key : String) : Option (Option Node) :=
  match entries.filter (·.1 == key) with
  | [] => some none
  | [(_, value)] => some (some value)
  | _ => none

def field? (entries : List (String × Node)) (key : String) (default : α)
    (read? : Node → Option α) : Option α := do
  match ← single? entries key with
  | none => return default
  | some node => read? node

/-- A whole number without a minus sign, of 32 bits. -/
def word? (n : Node) : Option UInt32 := do
  let (negative, value) ← readWhole? (← untyped? "int" n).toList
  if !negative && value < UInt32.size then some (UInt32.ofNat value) else none

def signedWord? (n : Node) : Option Int64 := do
  let (negative, value) ← readWhole? (← untyped? "int" n).toList
  let signed : Int := if negative then -value else value
  if Int64.minValue.toInt ≤ signed ∧ signed ≤ Int64.maxValue.toInt then
    some (Int64.ofInt signed)
  else none

def flag? (n : Node) : Option Bool := do readBool? (← untyped? "bool" n)

end Yaml

namespace Config

open Yaml

def ofSection? (root n : Node) : Option Config := do
  let entries ← entries? root n
  let usual : Config := {}
  return {
    maxCommands := ← field? entries "max-commands" usual.maxCommands word?
    timeout := ← field? entries "timeout" usual.timeout signedWord?
    allowConsole := ← field? entries "allow-console-commands" usual.allowConsole flag?
    maxIncludeDepth := ← field? entries "max-include-depth" usual.maxIncludeDepth word? }

/-- Whether the root of a document says that there is nothing; a root that is tagged as nothing
must say so. -/
def isAbsent? : Node → Option Bool
  | .scalar _ none .plain text => some (text.isEmpty || isNullText text)
  | .scalar _ (some tag) .plain text =>
    if tag = standardTag "null" then if isNullText text then some true else none
    else some false
  | _ => some false

def ofYaml? (text : String) : Option Config := do
  if isBlankText text then return {}
  match ← document? text with
  | none => return {}
  | some root =>
    if ← isAbsent? root then return {}
    let entries ← entries? root root
    field? entries "script" {} (ofSection? root)

inductive Fault where
  | unreadable (fault : FileFault)
  | malformed
  deriving DecidableEq, Repr

def Fault.message : Fault → String
  | .unreadable fault => "Failed to read configuration: " ++ fault.message
  | .malformed => "Invalid configuration: not a document of settings"

def ofFile : Except FileFault String → Except Fault Config
  | .error fault => .error (.unreadable fault)
  | .ok text =>
    match ofYaml? text with
    | some config => .ok config
    | none => .error .malformed

def load (files : FileTree) (path : String) : Except Fault Config := ofFile (files.readText path)

end Config

end MenuScript
