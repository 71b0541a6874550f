import MenuScript.Config
import MenuScript.Context
import MenuScript.FunctionTable
import MenuScript.Server

/-! The machine that runs scripts: an engine with the context of one execution, and the steps from
which everything else is put together. A script ends with a value or is halted; either way the
machine it leaves is kept. -/

namespace MenuScript

/-- What is shared by all executions: settings, functions and the server. -/
structure Engine where
  config : Config := {}
  functions : FunctionTable := FunctionTable.builtins
  server : Server := {}

structure Machine extends Engine where
  context : Context

/-- Why a script has no value. -/
inductive Halt where
  | failed (error : ScriptError)
  /-- Scripts were nested deeper than the interpreter can follow. -/
  | tooDeep
  deriving DecidableEq, Repr

abbrev Script := EStateM Halt Machine

namespace Script

def fail (e : ScriptError) : Script α := throw (.failed e)

def context : Script Context := return (← get).context

def modifyContext (f : Context → Context) : Script Unit :=
  modify fun m => { m with context := f m.context }

def modifyServer (f : Server → Server) : Script Unit :=
  modify fun m => { m with server := f m.server }

def record (e : Event) : Script Unit := modifyServer (·.record e)

def tell (text : String) : Script Unit := do
  record (.message (← context).actor.slot text)

/-- Tells the acting player of a refusal, which is the value false. -/
def refuse (r : Refusal) : Script Value := do
  tell r.message
  return .bool false

/-- Counts an action against the budget. The script fails at the action that goes past it. -/
def charge : Script Unit := do
  let (outcome, budget) := (← context).budget.charge
  modifyContext fun c => { c with budget }
  match outcome with
  | .ok () => return
  | .error e => fail e

def readClock : Script Nat := do
  let (now, clock) := (← get).server.clock.read
  modifyServer fun s => { s with clock }
  return now

/-- Fails if the time limit has passed; without a limit the clock is left alone. -/
def checkTime : Script Unit := do
  let budget := (← context).budget
  if budget.timeLimit.isSome then
    match budget.checkTime (← readClock) with
    | .ok () => return
    | .error e => fail e

def draw (least greatest : Int) : Script Int := do
  let (n, chance) := (← get).server.chance.draw least greatest
  modifyServer fun s => { s with chance }
  return n

def resolve (text : String) : Script String := return (← context).resolve text

/-- The outcome of a computation; its errors are answers here. -/
def attempt (x : Script α) : Script (Except ScriptError α) := fun m =>
  match x m with
  | .ok a m => .ok (.ok a) m
  | .error (.failed e) m => .ok (.error e) m
  | .error .tooDeep m => .error .tooDeep m

/-- Runs a computation one include deeper, and comes back up however it ends. -/
def deeper (x : Script α) : Script α := fun m =>
  let up (m : Machine) : Machine :=
    { m with context.includeDepth := m.context.includeDepth - 1 }
  match x { m with context.includeDepth := m.context.includeDepth + 1 } with
  | .ok a m => .ok a (up m)
  | .error e m => .error e (up m)

end Script

end MenuScript
