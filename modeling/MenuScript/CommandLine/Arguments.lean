import MenuScript.Number.WholeNumber
import MenuScript.Text

/-! The arguments of the command line. A setting takes a value and a switch takes none. A setting
has its value in the same argument or in the next one, and the next one counts as a value only if
it does not look like another option. Switches of one letter may stand together, the last letter
may be a setting. What is neither is the script file, and after two dashes nothing else is
expected. All but variables may be given once only. -/

namespace MenuScript.CommandLine

/-- Options that take a value. -/
inductive Setting where
  | player
  | binding
  | config
  | maxCommands
  | timeout
  | scripts
  deriving DecidableEq, Repr

/-- Options that take no value. -/
inductive Switch where
  | noConsole
  | verbose
  | help
  | version
  deriving DecidableEq, Repr

inductive Key where
  | setting (setting : Setting)
  | switch (switch : Switch)
  deriving DecidableEq, Repr

def Key.ofName? : String → Option Key
  | "player" => some (.setting .player)
  | "var" => some (.setting .binding)
  | "config" => some (.setting .config)
  | "max-commands" => some (.setting .maxCommands)
  | "timeout" => some (.setting .timeout)
  | "scripts" => some (.setting .scripts)
  | "no-console" => some (.switch .noConsole)
  | "verbose" => some (.switch .verbose)
  | "help" => some (.switch .help)
  | "version" => some (.switch .version)
  | _ => none

def Key.ofLetter? : Char → Option Key
  | 'p' => some (.setting .player)
  | 'c' => some (.setting .config)
  | 'v' => some (.switch .verbose)
  | 'h' => some (.switch .help)
  | 'V' => some (.switch .version)
  | _ => none

structure Options where
  file : String
  player : String := "Player"
  /-- Variables in the order in which they were given. -/
  bindings : List (String × String) := []
  config : Option String := none
  maxCommands : Option UInt32 := none
  timeout : Option Int64 := none
  scripts : Option String := none
  noConsole : Bool := false
  verbose : Bool := false
  deriving DecidableEq, Repr

inductive Stop where
  | usage
  | help
  | version
  deriving DecidableEq, Repr

/-- What the arguments up to some point have said. -/
structure Draft where
  file : Option String := none
  player : Option String := none
  bindings : List (String × String) := []
  config : Option String := none
  maxCommands : Option UInt32 := none
  timeout : Option Int64 := none
  scripts : Option String := none
  noConsole : Bool := false
  verbose : Bool := false
  /-- The setting whose value is still to come. -/
  awaiting : Option Setting := none
  /-- Whether two dashes were met. -/
  onlyFiles : Bool := false

def readPath? (value : String) : Option String := if value = "" then none else some value

/-- A variable is a name, an equality sign and a value; the blanks around the name do not count. -/
def readBinding? (value : String) : Option (String × String) :=
  let s := value.toList
  match s.dropWhile (· != '=') with
  | [] => none
  | _ :: text =>
    let name := Text.trim (s.takeWhile (· != '='))
    if name.isEmpty then none else some (String.ofList name, String.ofList text)

def readLimit? (value : String) : Option UInt32 := do
  let n ← Number.readInt64? value
  if 0 ≤ n.toInt ∧ n.toInt < UInt32.size then some (UInt32.ofNat n.toInt.toNat) else none

/-- A value that may be given once only, and must be one that can be read. -/
def once (old new : Option α) : Except Stop (Option α) :=
  if old.isSome || new.isNone then .error .usage else .ok new

namespace Draft

def assign (d : Draft) (setting : Setting) (value : String) : Except Stop Draft := do
  match setting with
  | .player => return { d with player := ← once d.player (some value) }
  | .config => return { d with config := ← once d.config (readPath? value) }
  | .maxCommands => return { d with maxCommands := ← once d.maxCommands (readLimit? value) }
  | .timeout => return { d with timeout := ← once d.timeout (Number.readInt64? value) }
  | .scripts => return { d with scripts := ← once d.scripts (readPath? value) }
  | .binding =>
    match readBinding? value with
    | some binding => return { d with bindings := d.bindings ++ [binding] }
    | none => throw .usage

/-- Turns a switch on. Help and version are given at once, whatever may follow. -/
def turnOn (d : Draft) : Switch → Except Stop Draft
  | .noConsole => if d.noConsole then .error .usage else .ok { d with noConsole := true }
  | .verbose => if d.verbose then .error .usage else .ok { d with verbose := true }
  | .help => .error .help
  | .version => .error .version

def settled (d : Draft) : Except Stop Draft :=
  if d.awaiting.isSome then .error .usage else .ok d

/-- Takes an option under its long name, with a value if the argument has one. -/
def takeLong (d : Draft) (name : String) (value : Option String) : Except Stop Draft := do
  let d ← d.settled
  match Key.ofName? name, value with
  | some (.setting setting), some value => d.assign setting value
  | some (.setting setting), none => return { d with awaiting := some setting }
  | some (.switch switch), none => d.turnOn switch
  | some (.switch _), some _ => throw .usage
  | none, _ => throw .usage

/-- Takes options given by letters. What follows the letter of a setting is its value, from which
an equality sign at its head is dropped. -/
def takeLetters (d : Draft) : List Char → Except Stop Draft
  | [] => .ok d
  | c :: rest =>
    match Key.ofLetter? c, rest with
    | some (.switch switch), _ => do (← d.turnOn switch).takeLetters rest
    | some (.setting setting), [] => .ok { d with awaiting := some setting }
    | some (.setting setting), '=' :: value => d.assign setting (String.ofList value)
    | some (.setting setting), value => d.assign setting (String.ofList value)
    | none, _ => .error .usage

def takeFile (d : Draft) (path : String) : Except Stop Draft := do
  let d ← d.settled
  return { d with file := ← once d.file (readPath? path) }

def take (d : Draft) (argument : String) : Except Stop Draft :=
  if d.onlyFiles then d.takeFile argument
  else
    match argument.toList with
    | ['-', '-'] => .ok { d with onlyFiles := true }
    | '-' :: '-' :: option =>
      let name := String.ofList (option.takeWhile (· != '='))
      match option.dropWhile (· != '=') with
      | [] => d.takeLong name none
      | _ :: value => d.takeLong name (some (String.ofList value))
    | '-' :: c :: letters => do (← d.settled).takeLetters (c :: letters)
    | _ =>
      match d.awaiting with
      | some setting => { d with awaiting := none }.assign setting argument
      | none => d.takeFile argument

def finish (d : Draft) : Except Stop Options := do
  let d ← d.settled
  let some file := d.file | throw .usage
  let usual : Options := { file }
  return {
    file
    player := d.player.getD usual.player
    bindings := d.bindings
    config := d.config
    maxCommands := d.maxCommands
    timeout := d.timeout
    scripts := d.scripts
    noConsole := d.noConsole
    verbose := d.verbose }

end Draft

def Options.read (arguments : List String) : Except Stop Options := do
  (← arguments.foldlM Draft.take {}).finish

end MenuScript.CommandLine
