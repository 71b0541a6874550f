import MenuScript.Actor
import MenuScript.BranchStack
import MenuScript.Budget
import MenuScript.Condition
import MenuScript.Dictionary
import MenuScript.Placeholder

/-! The context of an execution: everything that a running script keeps from one line to the
next. Included scripts run in the context of the script that includes them. -/

namespace MenuScript

structure Context where
  actor : Actor
  bindings : Dictionary Value
  /-- The value of the last line that was run. -/
  result : Value := .null
  cancelled : Bool := false
  budget : Budget
  /-- The data stack, top first. -/
  data : List Value := []
  branches : BranchStack := []
  includeDepth : Nat := 0

namespace Context

/-- What a name in braces stands for: the actor's name, identifier or world, or else a variable. -/
def meaning (c : Context) (name : String) : String :=
  if sameText name "player" then c.actor.name
  else if sameText name "uuid" then c.actor.uuid.text
  else if sameText name "world" then c.actor.world
  else
    match c.bindings.get? name with
    | some value => value.text
    | none => ""

def resolve (c : Context) (text : String) : String := Placeholder.resolve c.meaning text

def holds (c : Context) (condition : String) : Bool := Condition.holds (c.resolve condition)

def set (c : Context) (name : String) (value : Value) : Context :=
  { c with bindings := c.bindings.insert name value }

end Context

end MenuScript
