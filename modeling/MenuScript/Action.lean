import MenuScript.Machine

/-! Actions: what lines and functions do to the world and to the variables. Running a command,
opening or closing a menu and using the console count against the budget, and each is counted
before it is performed. -/

namespace MenuScript.Action

open Script

/-- The player that a command is meant for: the online player of that name, or else the acting
player. -/
def recipient (m : Machine) (target : Option String) : Actor :=
  match target.bind m.server.online.get? with
  | some actor => actor
  | none => m.context.actor

/-- Has a player run a command. Nothing is run for a blank text. -/
def runCommand (target : Option String) (text : String) : Script Value := do
  if isBlankText text then return .bool false
  let actor := recipient (← get) target
  charge
  record (.command actor.slot text)
  return .bool actor.acceptsCommands

def openMenu (menu : String) (target : Option String) : Script Value := do
  let m ← get
  let actor? := match target with
    | none => some m.context.actor
    | some name => m.server.online.get? name
  match actor? with
  | none => return .bool false
  | some actor =>
    charge
    record (.opened actor.name menu)
    return .bool true

def closeMenu : Script Value := do
  charge
  record (.closed (← context).actor.name)
  return .bool true

def sendMessage (text : String) : Script Value := do
  tell text
  return .bool true

def runConsole (command : String) : Script Value := do
  if !(← get).config.allowConsole then refuse .consoleDisabled
  else if isBlankText command then return .bool false
  else
    charge
    record (.console command)
    return .bool true

def hasPermission (permission : String) : Script Value :=
  return .bool ((← context).actor.holds permission)

def assign (name : String) (value : Value) : Script Value := do
  modifyContext (·.set name value)
  return .bool true

/-- The numbers of a `math` line: that of the variable, zero if there is none, and the operand. -/
def mathOperands? (c : Context) (name operand : String) : Option (Float × Float) := do
  let current ← match c.bindings.get? name with
    | none => some 0.0
    | some value => value.number?
  let operand ← Number.readFloat? (trimmed operand)
  return (current, operand)

/-- Combines a variable with an operand and stores the result. What is not a number changes
nothing; division by zero ends the script. -/
def applyMath (name : String) (op : MathOp) (operand : String) : Script Value := do
  match mathOperands? (← context) name operand with
  | none => return .bool false
  | some (x, y) =>
    if op = .div ∧ y == 0.0 then fail .divisionByZero
    assign name (.number (op.apply x y))

/-- The bounds of a `random` line, if the first is less than the second. -/
def bounds? (least greatest : String) : Option (Int64 × Int64) := do
  let a ← Number.readInt64? (trimmed least)
  let b ← Number.readInt64? (trimmed greatest)
  if a < b then some (a, b) else none

/-- Stores an integer drawn between two bounds, both of them included. -/
def storeRandom (name least greatest : String) : Script Value := do
  match bounds? least greatest with
  | none => return .bool false
  | some (a, b) =>
    let n ← draw a.toInt b.toInt
    assign name (.integer (Int64.ofInt n))

/-- The longest pause of one line, in milliseconds. -/
def longestDelay : Nat := 10000

def delay (millis : String) : Script Value := do
  match Number.readInt64? (trimmed millis) with
  | none => return .bool false
  | some n =>
    if 0 < n.toInt then modifyServer (·.pause (min n.toInt.toNat longestDelay))
    return .bool true

end MenuScript.Action
