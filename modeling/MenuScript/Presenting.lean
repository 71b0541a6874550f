import MenuScript.Machine

/-! Presentations: sounds, titles, the action bar, particles, fireworks, healing and feeding. A
presentation has its effect on the acting player or none at all; what goes wrong is told to the
player, and the script goes on. -/

namespace MenuScript.Presentation

open Script

/-- An optional argument: a default where it is missing, a refusal where it cannot be read. -/
def argument (p : Presentation) (read? : String → Option α) (default : α) :
    Option Value → Except Refusal α
  | none => .ok default
  | some value =>
    match read? (trimmed value.text) with
    | some a => .ok a
    | none => .error (.invalidArgument p.name value.text)

def timings (p : Presentation) (args : List Value) : Except Refusal TitleTimings := do
  let usual : TitleTimings := {}
  let fadeIn ← p.argument Number.readInt32? usual.fadeIn args[1]?
  let stay ← p.argument Number.readInt32? usual.stay args[2]?
  let fadeOut ← p.argument Number.readInt32? usual.fadeOut args[3]?
  return ⟨fadeIn, stay, fadeOut⟩

def usualParticles : Int32 := 10

def usualHealing : Float := 20.0

def usualFeeding : Int32 := 20

def drawsColours (args : List Value) : Bool := args.head?.any fun a => sameText a.text "random"

/-- The effect that the arguments ask for; none where a required argument is missing. -/
def effect? (p : Presentation) (colours : Burst) (args : List Value) :
    Except Refusal (Option Effect) :=
  match p, args with
  | .sound, id :: _ => do
    let volume ← p.argument Number.readFloat32? 1.0 args[1]?
    let pitch ← p.argument Number.readFloat32? 1.0 args[2]?
    return some (.sound id.text volume pitch)
  | .title, text :: _ => return some (.title text.text "" (← p.timings args))
  | .subtitle, text :: _ => return some (.title "" text.text (← p.timings args))
  | .actionBar, _ :: _ => return some (.actionBar (Value.joined args))
  | .particle, id :: _ => do
    let usual : Spread := {}
    let count ← p.argument Number.readInt32? usualParticles args[1]?
    let x ← p.argument Number.readFloat? usual.x args[2]?
    let y ← p.argument Number.readFloat? usual.y args[3]?
    let z ← p.argument Number.readFloat? usual.z args[4]?
    return some (.particle id.text count ⟨x, y, z⟩)
  | .firework, _ => return some (.firework colours)
  | .heal, _ => return some (.heal (← p.argument Number.readFloat? usualHealing args[0]?))
  | .feed, _ => return some (.feed (← p.argument Number.readInt32? usualFeeding args[0]?))
  | _, [] => return none

/-- A drawn colour; the brightest value of a channel is never drawn. -/
def drawColour : Script Colour := do
  let red ← draw 0 254
  let green ← draw 0 254
  let blue ← draw 0 254
  return ⟨UInt8.ofNat red.toNat, UInt8.ofNat green.toNat, UInt8.ofNat blue.toNat⟩

def colours (p : Presentation) (args : List Value) : Script Burst := do
  if p = .firework ∧ drawsColours args then
    let primary ← drawColour
    let secondary ← drawColour
    return ⟨primary, secondary⟩
  else return {}

/-- What the player is told when an effect is refused: a text for the action bar arrives as a
message instead. -/
def excuse (e : Effect) (r : Refusal) : String :=
  match e with
  | .actionBar text => text
  | _ => r.message

def run (p : Presentation) (args : List Value) : Script Value := do
  match p.effect? (← p.colours args) args with
  | .error r => refuse r
  | .ok none => return .bool false
  | .ok (some e) =>
    let actor := (← context).actor
    match actor.stage.receive e with
    | .error r =>
      tell (excuse e r)
      return .bool false
    | .ok none => return .bool true
    | .ok (some e) =>
      record (.effect actor.slot e)
      return .bool true

end MenuScript.Presentation
