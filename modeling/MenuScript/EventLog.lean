import MenuScript.Actor

/-! The event log: everything that scripts have done to the world, in the order in which it was
done. The log is only ever appended to. What one actor has received, or what one service was asked
for, is a view of it. -/

namespace MenuScript

/-- Something done by a script. Actors are given by their slots. -/
inductive Event where
  | message (slot : Nat) (text : String)
  | command (slot : Nat) (text : String)
  | effect (slot : Nat) (effect : Effect)
  | console (command : String)
  | opened (player menu : String)
  | closed (player : String)
  | paused (millis : Nat)
  /-- A script was to be included that the library does not have. -/
  | missed (script : String)

abbrev EventLog := Array Event

namespace EventLog

def messages (log : EventLog) (slot : Nat) : List String :=
  log.toList.filterMap fun
    | .message receiver text => if receiver = slot then some text else none
    | _ => none

def commands (log : EventLog) (slot : Nat) : List String :=
  log.toList.filterMap fun
    | .command runner text => if runner = slot then some text else none
    | _ => none

def effects (log : EventLog) (slot : Nat) : List Effect :=
  log.toList.filterMap fun
    | .effect on effect => if on = slot then some effect else none
    | _ => none

def console (log : EventLog) : List String :=
  log.toList.filterMap fun
    | .console command => some command
    | _ => none

def opened (log : EventLog) : List (String × String) :=
  log.toList.filterMap fun
    | .opened player menu => some (player, menu)
    | _ => none

def closed (log : EventLog) : List String :=
  log.toList.filterMap fun
    | .closed player => some player
    | _ => none

def missed (log : EventLog) : List String :=
  log.toList.filterMap fun
    | .missed script => some script
    | _ => none

end EventLog

end MenuScript
