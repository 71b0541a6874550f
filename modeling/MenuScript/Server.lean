import MenuScript.Clock
import MenuScript.EventLog
import MenuScript.ScriptLibrary

/-! The server that scripts act on: who is online, the script library, the time, chance, and the
log of everything done. -/

namespace MenuScript

/-- Chance as data: a stream of raw numbers, of which each draw uses the next. -/
structure Chance where
  raw : Nat → Nat
  used : Nat := 0

namespace Chance

def draw (c : Chance) (least greatest : Int) : Int × Chance :=
  (least + c.raw c.used % ((greatest - least).toNat + 1), { c with used := c.used + 1 })

end Chance

structure Server where
  online : Dictionary Actor := ∅
  library : ScriptLibrary := .shelf ∅
  clock : Clock := Clock.steady 0
  chance : Chance := ⟨fun _ => 0, 0⟩
  log : EventLog := #[]

namespace Server

def record (s : Server) (e : Event) : Server := { s with log := s.log.push e }

/-- Puts an actor online under its name, in place of any other of that name. -/
def welcome (s : Server) (a : Actor) : Server := { s with online := s.online.insert a.name a }

/-- Lets time pass and records that it was asked for. -/
def pause (s : Server) (millis : Nat) : Server :=
  { s with clock := s.clock.advance (Clock.millis millis) }.record (.paused millis)

end Server

end MenuScript
