import MenuScript.ScriptError
import MenuScript.Value

/-! Routines: functions that a host supplies. A routine reaches the running script only through
requests, each of which is answered before the routine goes on, so what it can do to a script is
what the requests can do. -/

namespace MenuScript

inductive Request where
  | tell (text : String)
  | getVariable (name : String)
  | setVariable (name : String) (value : Value)
  /-- Removes a variable and answers what it held. -/
  | removeVariable (name : String)
  | pushData (value : Value)
  | popData
  | peekData
  | dataSize
  | charge
  | commandCount
  | includeDepth
  | lastResult
  | pushBranch (taken : Bool)
  | popBranch
  /-- Turns the innermost branch and answers whether there is one. -/
  | flipBranch
  | branchDepth
  /-- Asks the script to stop after the current line. -/
  | cancel
  | runSource (source : String)
  | runNamed (name : String)
  /-- Removes a function and answers whether there was one. -/
  | unregister (name : String)

abbrev Request.Answer : Request → Type
  | .tell _ | .setVariable .. | .pushData _ | .pushBranch _ | .cancel => Unit
  | .getVariable _ | .removeVariable _ => Option Value
  | .popData | .peekData | .runSource _ | .runNamed _ => Except ScriptError Value
  | .charge => Except ScriptError Unit
  | .popBranch => Except ScriptError Bool
  | .dataSize | .commandCount | .includeDepth | .branchDepth => Nat
  | .lastResult => Value
  | .flipBranch | .unregister _ => Bool

inductive Routine (α : Type) where
  | done (a : α)
  | ask (request : Request) (next : request.Answer → Routine α)

namespace Routine

def bind : Routine α → (α → Routine β) → Routine β
  | .done a, f => f a
  | .ask request next, f => .ask request fun answer => (next answer).bind f

instance : Monad Routine where
  pure := .done
  bind := Routine.bind

def request (r : Request) : Routine r.Answer := .ask r .done

end Routine

end MenuScript
