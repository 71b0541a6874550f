/-! Settings of a script engine: limits on every execution, and whether the console may be used. -/

namespace MenuScript

structure Config where
  /-- Actions allowed in one execution; zero is no limit. -/
  maxCommands : UInt32 := 10
  /-- Time limit in milliseconds; zero or less is no limit. -/
  timeout : Int64 := 1000
  allowConsole : Bool := true
  /-- Deepest nesting of includes; zero is no limit. -/
  maxIncludeDepth : UInt32 := 16
  deriving DecidableEq, Repr, Inhabited

namespace Config

def timeLimit? (c : Config) : Option Nat :=
  if 0 < c.timeout.toInt then some c.timeout.toInt.toNat else none

/-- A time limit of so many milliseconds, as far as they can be stored. -/
def withTimeout (c : Config) (millis : Nat) : Config :=
  { c with timeout := Int64.ofInt (min (millis : Int) Int64.maxValue.toInt) }

end Config

end MenuScript
