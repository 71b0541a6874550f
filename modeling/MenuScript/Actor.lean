import MenuScript.ScriptError
import MenuScript.Text
import MenuScript.Uuid

/-! Actors: the players that scripts run as and act upon. An actor is told apart by its slot; what
it receives is kept in the event log and not here, so an actor never changes. -/

namespace MenuScript

/-- Ticks that a title takes to appear, stays and takes to fade. -/
structure TitleTimings where
  fadeIn : Int32 := 10
  stay : Int32 := 70
  fadeOut : Int32 := 20
  deriving DecidableEq, Repr

structure Spread where
  x : Float := 0.5
  y : Float := 0.5
  z : Float := 0.5

structure Colour where
  red : UInt8
  green : UInt8
  blue : UInt8
  deriving DecidableEq, Repr

/-- The colours of a firework: its burst and what it fades to. -/
structure Burst where
  primary : Colour := ⟨255, 0, 0⟩
  secondary : Colour := ⟨0, 0, 255⟩
  deriving DecidableEq, Repr

inductive Effect where
  | sound (id : String) (volume pitch : Float32)
  | title (title subtitle : String) (timings : TitleTimings)
  | actionBar (text : String)
  | particle (id : String) (count : Int32) (spread : Spread)
  | firework (colours : Burst)
  | heal (amount : Float)
  | feed (amount : Int32)

inductive Stage where
  /-- Titles, healing and feeding pass unnoticed, everything else is refused. -/
  | bare
  /-- Everything is shown, except sounds and particles outside the given lists, and except the
  action bar where it is missing. -/
  | equipped (sounds particles : Option (List String)) (actionBar : Bool)

/-- Whether an identifier is in the list, in any case of its letters; no list knows them all. -/
def isKnown (known : Option (List String)) (id : String) : Bool :=
  match known with
  | none => true
  | some ids => ids.any fun known => upperCased known == upperCased id

/-- What the actor notices of an effect, or why it is refused. -/
def Stage.receive : Stage → Effect → Except Refusal (Option Effect)
  | .bare, .sound id .. => .error (.unknownSound id)
  | .bare, .particle id .. => .error (.unknownParticle id)
  | .bare, .actionBar _ => .error (.unsupported .actionBar)
  | .bare, .firework _ => .error (.unsupported .firework)
  | .bare, _ => .ok none
  | .equipped sounds _ _, e@(.sound id ..) =>
    if isKnown sounds id then .ok (some e) else .error (.unknownSound id)
  | .equipped _ particles _, e@(.particle id ..) =>
    if isKnown particles id then .ok (some e) else .error (.unknownParticle id)
  | .equipped _ _ actionBar, e@(.actionBar _) =>
    if actionBar then .ok (some e) else .error (.unsupported .actionBar)
  | .equipped .., e => .ok (some e)

structure Actor where
  slot : Nat
  name : String
  uuid : Uuid
  world : String := "world"
  /-- The permissions held; no list holds them all. -/
  permissions : Option (List String) := none
  /-- Whether a command that the actor runs counts as accepted. -/
  acceptsCommands : Bool := true
  stage : Stage := .equipped none none true

def Actor.holds (a : Actor) (permission : String) : Bool :=
  match a.permissions with
  | none => true
  | some granted => granted.contains permission

end MenuScript
