import MenuScript.Interpreter

/-! The engine as it is used from outside: making contexts, running scripts in them, and calling
functions directly. -/

namespace MenuScript

namespace Engine

/-- A fresh context for an actor, under the limits that are set now; its time counts from now. -/
def newContext (e : Engine) (actor : Actor) (bindings : Dictionary Value) : Context × Engine :=
  let (now, clock) := e.server.clock.read
  ({ actor, bindings,
     budget := { limit := e.config.maxCommands, started := now,
                 timeLimit := e.config.timeLimit? } },
    { e with server := { e.server with clock } })

def machine (e : Engine) (actor : Actor) (bindings : Dictionary Value) : Machine :=
  let (context, engine) := e.newContext actor bindings
  { engine with context }

def describe (e : Engine) : String :=
  "ScriptEngine \x7b config: ScriptConfig \x7b max_commands: "
    ++ toString e.config.maxCommands.toNat
    ++ ", timeout: " ++ toString e.config.timeout.toInt
    ++ ", allow_console_commands: " ++ (if e.config.allowConsole then "true" else "false")
    ++ ", max_include_depth: " ++ toString e.config.maxIncludeDepth.toNat
    ++ " \x7d, functions: " ++ toString e.functions.size ++ " \x7d"

end Engine

namespace Machine

/-- The outcome of a computation, and the machine it leaves. -/
def perform (m : Machine) (x : Script α) : Except Halt α × Machine :=
  match x m with
  | .ok a m => (.ok a, m)
  | .error e m => (.error e, m)

def run (m : Machine) (source : String) : Except Halt Value × Machine :=
  m.perform (MenuScript.run nestingCapacity source)

def runNamed (m : Machine) (name : String) : Except Halt Value × Machine :=
  m.perform (MenuScript.runNamed (MenuScript.run nestingCapacity) name)

def call? (m : Machine) (name : String) (args : List Value) :
    Option (Except Halt Value × Machine) :=
  (m.functions.get? name).map fun f =>
    m.perform (f.call (MenuScript.run nestingCapacity) args)

def answer (m : Machine) (r : Request) : Except Halt r.Answer × Machine :=
  m.perform (r.perform (MenuScript.run nestingCapacity))

end Machine

end MenuScript
