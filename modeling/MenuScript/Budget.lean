import MenuScript.Clock
import MenuScript.ScriptError

/-! The budget of an execution: how many actions it may perform and how long it may take. A limit
of zero actions, or no time limit, means that there is no bound. -/

namespace MenuScript

structure Budget where
  used : UInt32 := 0
  limit : UInt32
  started : Nat
  /-- The time limit in milliseconds. -/
  timeLimit : Option Nat

namespace Budget

/-- Number of the last action that is counted as such. -/
def lastCount : UInt32 := 4294967295

/-- One more action, up to the last count. -/
def counted (b : Budget) : Budget :=
  { b with used := if b.used = lastCount then b.used else b.used + 1 }

def isOverdrawn (b : Budget) : Bool := 0 < b.limit && b.limit < b.used

/-- Counts an action. The action that goes past the limit is counted and must not be performed. -/
def charge (b : Budget) : Except ScriptError Unit × Budget :=
  let b := b.counted
  (if b.isOverdrawn then .error (.budgetExceeded b.limit) else .ok (), b)

def elapsed (b : Budget) (now : Nat) : Nat := now - b.started

def isLate (b : Budget) (now : Nat) : Bool :=
  match b.timeLimit with
  | none => false
  | some limit => Clock.millis limit < b.elapsed now

def checkTime (b : Budget) (now : Nat) : Except ScriptError Unit :=
  match b.timeLimit with
  | none => .ok ()
  | some limit => if b.isLate now then .error (.timedOut limit) else .ok ()

def restarted (b : Budget) (now : Nat) : Budget := { b with started := now }

end Budget

end MenuScript
