/-! Causes that end a script, and refusals that a script survives. Each cause carries what its
message shows; the wording is in one function for each type. -/

namespace MenuScript

inductive StackName where
  | data
  | condition
  deriving DecidableEq, Repr

/-- A cause that ends the whole script, with every script that includes it. -/
inductive ScriptError where
  | unknownCommand (line : String)
  | stackUnderflow (stack : StackName)
  | divisionByZero
  | budgetExceeded (limit : UInt32)
  | timedOut (limitMillis : Nat)
  | functionNotFound (name : String)
  | includeTooDeep (limit : UInt32)
  | scriptNotFound (name : String)
  | functionFailed (name reason : String)
  deriving DecidableEq, Repr

def StackName.word : StackName → String
  | .data => "data"
  | .condition => "condition"

def ScriptError.message : ScriptError → String
  | .unknownCommand line => "Unknown script command: " ++ line
  | .stackUnderflow stack => "The " ++ stack.word ++ " stack is empty"
  | .divisionByZero => "Arithmetic error: Division by zero"
  | .budgetExceeded limit =>
    "Script exceeded maximum command limit of " ++ toString limit.toNat
  | .timedOut limit => "Script execution timed out (limit " ++ toString limit ++ " ms)"
  | .functionNotFound name => "Unknown script function: " ++ name
  | .includeTooDeep limit => "Include depth exceeded maximum of " ++ toString limit.toNat
  | .scriptNotFound name => "Script not found: " ++ name
  | .functionFailed name reason => "Function '" ++ name ++ "' failed: " ++ reason

/-- Presentations that an actor may not be able to show at all. -/
inductive Feature where
  | actionBar
  | firework
  deriving DecidableEq, Repr

/-- A request that is turned down: the acting player is told, and the script goes on. -/
inductive Refusal where
  | unknownSound (id : String)
  | unknownParticle (id : String)
  | invalidArgument (function argument : String)
  | consoleDisabled
  | unsupported (feature : Feature)
  deriving DecidableEq, Repr

def Feature.word : Feature → String
  | .actionBar => "action bar"
  | .firework => "firework"

def Refusal.message : Refusal → String
  | .unknownSound id => "Unknown sound: " ++ id
  | .unknownParticle id => "Unknown particle effect: " ++ id
  | .invalidArgument function argument =>
    "Invalid argument for " ++ function ++ ": " ++ argument
  | .consoleDisabled => "Console commands are disabled in the configuration."
  | .unsupported feature => "Unsupported by this host: " ++ feature.word

end MenuScript
