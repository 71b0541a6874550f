import MenuScript.Builtin
import MenuScript.Dictionary
import MenuScript.Routine

/-! The function table of an engine. A name keeps the function it was first given until it is
removed. -/

namespace MenuScript

inductive Callable where
  | builtin (b : Builtin)
  | routine (body : List Value → Routine (Except ScriptError Value))

abbrev FunctionTable := Dictionary Callable

namespace FunctionTable

/-- Gives a free name a function; a name in use keeps the one it has. Tells whether the name was
free. -/
def register (t : FunctionTable) (name : String) (f : Callable) : Bool × FunctionTable :=
  if t.contains name then (false, t) else (true, t.insert name f)

/-- Removes a name and tells whether it was in use. -/
def unregister (t : FunctionTable) (name : String) : Bool × FunctionTable :=
  (t.contains name, t.erase name)

def builtins : FunctionTable :=
  Builtin.all.foldl (fun t b => (register t b.name (.builtin b)).2) Dictionary.empty

end FunctionTable

end MenuScript
