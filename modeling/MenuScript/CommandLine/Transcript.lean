import MenuScript.EventLog
import MenuScript.Number.ShortestDecimal

/-! The transcript: what a terminal shows of the event log when one player is online. -/

namespace MenuScript.CommandLine

def colourText (c : Colour) : String :=
  "#" ++ String.ofList ([c.red, c.green, c.blue].flatMap fun n => Uuid.hexDigits 2 n.toNat)

def effectLine : Effect → String
  | .sound id volume pitch =>
    "[sound] " ++ id ++ " volume=" ++ Number.plainText32 volume
      ++ " pitch=" ++ Number.plainText32 pitch
  | .title title subtitle timings =>
    "[title] " ++ title ++ " | " ++ subtitle ++ " (" ++ toString timings.fadeIn.toInt
      ++ "/" ++ toString timings.stay.toInt ++ "/" ++ toString timings.fadeOut.toInt ++ ")"
  | .actionBar text => "[action bar] " ++ text
  | .particle id count spread =>
    "[particle] " ++ id ++ " x" ++ toString count.toInt ++ " spread=("
      ++ Number.plainText spread.x ++ ", " ++ Number.plainText spread.y
      ++ ", " ++ Number.plainText spread.z ++ ")"
  | .firework colours =>
    "[firework] " ++ colourText colours.primary ++ " -> " ++ colourText colours.secondary
  | .heal amount => "[heal] " ++ Number.plainText amount
  | .feed amount => "[feed] " ++ toString amount.toInt

/-- What a terminal does: it shows lines and waits. -/
inductive Entry where
  | line (text : String)
  | wait (millis : Nat)
  deriving DecidableEq, Repr

/-- What the terminal of a player does at an event, if anything. -/
def shown? (player : String) : Event → Option Entry
  | .message _ text => some (.line ("[to " ++ player ++ "] " ++ text))
  | .command _ text => some (.line ("[" ++ player ++ " runs] /" ++ text))
  | .effect _ effect => some (.line (effectLine effect))
  | .console command => some (.line ("[console] " ++ command))
  | .opened viewer menu => some (.line ("[gui] open " ++ menu ++ " for " ++ viewer))
  | .closed viewer => some (.line ("[gui] close for " ++ viewer))
  | .paused millis => some (.wait millis)
  | .missed _ => none

def transcript (player : String) (log : EventLog) : List Entry :=
  log.toList.filterMap (shown? player)

def Entry.text : Entry → String
  | .line text => text ++ "\n"
  | .wait _ => ""

end MenuScript.CommandLine
