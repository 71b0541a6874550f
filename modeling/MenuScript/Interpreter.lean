import MenuScript.Action
import MenuScript.Presenting
import MenuScript.Statement.Reader

/-! The interpreter: functions, statements, lines and whole sources. Everything below `run` takes
the way to run a nested source as a parameter, and `run` ties the knot by recursion on how deep
scripts may be nested. -/

namespace MenuScript

open Script

/-- Has a library script run one include deeper. A name that the library does not have is the
value false; a nesting beyond the limit ends the script. -/
def runIncluded (nested : String → Script Value) (name : String) : Script Value := do
  let m ← get
  match m.server.library.load? name with
  | none =>
    record (.missed name)
    return .bool false
  | some source =>
    let limit := m.config.maxIncludeDepth
    if 0 < limit ∧ limit.toNat ≤ m.context.includeDepth then fail (.includeTooDeep limit)
    let _ ← deeper (nested source)
    return .bool true

def Builtin.call (nested : String → Script Value) (b : Builtin) (args : List Value) :
    Script Value :=
  match b, args with
  | .command, args => Action.runCommand none (Value.joined args)
  | .openMenu, menu :: rest => Action.openMenu menu.text (rest.head?.map Value.text)
  | .closeMenu, _ => Action.closeMenu
  | .message, _ :: _ => Action.sendMessage (Value.joined args)
  | .console, args => Action.runConsole (Value.joined args)
  | .permission, wanted :: _ => Action.hasPermission wanted.text
  | .assign, [name, value] => Action.assign name.text value
  | .assign, name :: value :: rest =>
    Action.assign name.text (.string (Value.joined (value :: rest)))
  | .math, name :: op :: operand :: _ =>
    match MathOp.ofSymbol? op.text with
    | some op => Action.applyMath name.text op operand.text
    | none => return .bool false
  | .random, name :: least :: greatest :: _ =>
    Action.storeRandom name.text least.text greatest.text
  | .delay, millis :: _ => Action.delay millis.text
  | .includeScript, name :: _ => runIncluded nested name.text
  | .present p, args => p.run args
  | _, _ => return .bool false

def popData : Script Value := do
  match (← context).data with
  | [] => fail (.stackUnderflow .data)
  | value :: rest =>
    modifyContext fun c => { c with data := rest }
    return value

def popBranch : Script Bool := do
  match (← context).branches.pop? with
  | none => fail (.stackUnderflow .condition)
  | some (taken, branches) =>
    modifyContext fun c => { c with branches }
    return taken

def flipBranch : Script Bool := do
  let found := !(← context).branches.isEmpty
  modifyContext fun c => { c with branches := c.branches.flip }
  return found

def runNamed (nested : String → Script Value) (name : String) : Script Value := do
  match (← get).server.library.load? name with
  | none => fail (.scriptNotFound name)
  | some source => nested source

def Request.perform (nested : String → Script Value) : (r : Request) → Script r.Answer
  | .tell text => Script.tell text
  | .getVariable name => return (← context).bindings.get? name
  | .setVariable name value => modifyContext (·.set name value)
  | .removeVariable name => do
    let old := (← context).bindings.get? name
    modifyContext fun c => { c with bindings := c.bindings.erase name }
    return old
  | .pushData value => modifyContext fun c => { c with data := value :: c.data }
  | .popData => attempt MenuScript.popData
  | .peekData => do
    match (← context).data.head? with
    | some value => return .ok value
    | none => return .error (.stackUnderflow .data)
  | .dataSize => return (← context).data.length
  | .charge => attempt Script.charge
  | .commandCount => return (← context).budget.used.toNat
  | .includeDepth => return (← context).includeDepth
  | .lastResult => return (← context).result
  | .pushBranch taken => modifyContext fun c => { c with branches := c.branches.push taken }
  | .popBranch => attempt MenuScript.popBranch
  | .flipBranch => MenuScript.flipBranch
  | .branchDepth => return (← context).branches.depth
  | .cancel => modifyContext fun c => { c with cancelled := true }
  | .runSource source => attempt (nested source)
  | .runNamed name => attempt (MenuScript.runNamed nested name)
  | .unregister name => do
    let (found, functions) := (← get).functions.unregister name
    modify fun m => { m with functions }
    return found

def Routine.perform (nested : String → Script Value) : Routine α → Script α
  | .done a => return a
  | .ask request next => do
    let answer ← request.perform nested
    (next answer).perform nested

def Callable.call (nested : String → Script Value) (f : Callable) (args : List Value) :
    Script Value := do
  match f with
  | .builtin b => b.call nested args
  | .routine body =>
    match ← (body args).perform nested with
    | .ok value => return value
    | .error e => fail e

def Statement.perform (nested : String → Script Value) : Statement → Script Value
  | .ifHolds condition => do
    let taken := (← context).holds condition
    modifyContext fun c => { c with branches := c.branches.push taken }
    return .bool taken
  | .otherwise => do
    let _ ← flipBranch
    return .null
  | .endIf => return .bool (← popBranch)
  | .loop _ | .endLoop | .leaveLoop | .nextTurn => return .null
  | .command line => do
    let text ← resolve line.command
    if line.trailing.isEmpty then Action.runCommand line.target text
    else Action.runCommand line.target (text ++ " " ++ (← resolve line.trailing))
  | .openMenu menu target => do
    let c ← context
    Action.openMenu (c.resolve menu) (target.map c.resolve)
  | .closeMenu => Action.closeMenu
  | .message text => do Action.sendMessage (← resolve text)
  | .console text => do Action.runConsole (← resolve text)
  | .permission name => do Action.hasPermission (← resolve name)
  | .assign name value => do Action.assign name (.string (← resolve value))
  | .math name op operand => do Action.applyMath name op (← resolve operand)
  | .random name least greatest => do
    let c ← context
    Action.storeRandom name (c.resolve least) (c.resolve greatest)
  | .delay millis => do Action.delay (← resolve millis)
  | .call function arguments => do
    let m ← get
    match m.functions.get? function with
    | none => fail (.functionNotFound function)
    | some f => f.call nested (arguments.map fun a => .string (m.context.resolve a))

/-- What a statement does among skipped lines: branches are kept track of, and nothing else
happens. -/
def Statement.skip (branches : BranchStack) : Statement → BranchStack
  | .ifHolds _ => branches.pushSkipped
  | .otherwise => branches.flip
  | .endIf => branches.tail
  | _ => branches

/-- Whether a trimmed line says nothing: it is empty or a comment. -/
def isIgnorable (line : String) : Bool := line.toList.head?.all (· == '#')

/-- Runs one trimmed line that says something, and keeps its value. -/
def runStatement (nested : String → Script Value) (line : String) : Script Unit := do
  match Statement.read line with
  | .error e => fail e
  | .ok statement =>
    let value ← statement.perform nested
    modifyContext fun c => { c with result := value }

def runLine (nested : String → Script Value) (line : String) : Script Unit := do
  let line := trimmed line
  if isIgnorable line then return
  if (← context).branches.isSkipping then
    match Statement.read? line with
    | none => return
    | some statement =>
      modifyContext fun c => { c with branches := statement.skip c.branches }
  else runStatement nested line

/-- Runs lines one after another. Before each the time is checked, and a cancelled script stops
there. The value is that of the last line that was run. -/
def runLines (nested : String → Script Value) : List String → Script Value
  | [] => return (← context).result
  | line :: rest => do
    checkTime
    if (← context).cancelled then return (← context).result
    runLine nested line
    runLines nested rest

/-- Runs a source text; sources within it may be nested less than `depth` deep. -/
def run : Nat → String → Script Value
  | 0, _ => throw .tooDeep
  | depth + 1, source => runLines (run depth) (linesOf source)

/-- How deep sources may be nested. It is beyond every limit on includes that can be set. -/
def nestingCapacity : Nat := Nat.pow 2 40

end MenuScript
