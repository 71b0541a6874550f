/-! Statements: what one line of a script says. Branches are opened and closed by lines of their
own, so a script is a flat list of statements. -/

namespace MenuScript

inductive MathOp where
  | add
  | sub
  | mul
  | div
  deriving DecidableEq, Repr

namespace MathOp

def symbol : MathOp → Char
  | .add => '+'
  | .sub => '-'
  | .mul => '*'
  | .div => '/'

def ofChar? (c : Char) : Option MathOp :=
  [add, sub, mul, div].find? fun op => op.symbol == c

def ofSymbol? (s : String) : Option MathOp :=
  match s.toList with
  | [c] => ofChar? c
  | _ => none

def apply : MathOp → Float → Float → Float
  | .add, x, y => x + y
  | .sub, x, y => x - y
  | .mul, x, y => x * y
  | .div, x, y => x / y

end MathOp

/-- A command to be run by a player: the text before a target marker, the player it names, and
the text after it. Without a marker, what starts at the first brace is the trailing text. -/
structure PlayerCommand where
  command : String
  target : Option String
  trailing : String
  deriving DecidableEq, Repr

inductive Statement where
  | ifHolds (condition : String)
  | otherwise
  | endIf
  | loop (count : Nat)
  | endLoop
  | leaveLoop
  | nextTurn
  | command (line : PlayerCommand)
  | openMenu (menu : String) (target : Option String)
  | closeMenu
  | message (text : String)
  | console (command : String)
  | permission (name : String)
  | assign (name value : String)
  | math (name : String) (op : MathOp) (operand : String)
  | random (name least greatest : String)
  | delay (millis : String)
  | call (function : String) (arguments : List String)
  deriving DecidableEq, Repr

def Statement.isFlow : Statement → Bool
  | .ifHolds _ | .otherwise | .endIf => true
  | _ => false

end MenuScript
