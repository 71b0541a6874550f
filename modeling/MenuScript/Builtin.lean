/-! The functions that every engine offers to scripts, by name. Those that show something to the
acting player form a kind of their own. -/

namespace MenuScript

inductive Presentation where
  | sound
  | title
  | subtitle
  | actionBar
  | particle
  | firework
  | heal
  | feed
  deriving DecidableEq, Repr

inductive Builtin where
  | command
  | openMenu
  | closeMenu
  | message
  | console
  | permission
  | assign
  | math
  | random
  | delay
  | includeScript
  | present (p : Presentation)
  deriving DecidableEq, Repr

def Presentation.name : Presentation → String
  | .sound => "sound"
  | .title => "title"
  | .subtitle => "subtitle"
  | .actionBar => "actionbar"
  | .particle => "particle"
  | .firework => "firework"
  | .heal => "heal"
  | .feed => "feed"

def Presentation.all : List Presentation :=
  [.sound, .title, .subtitle, .actionBar, .particle, .firework, .heal, .feed]

namespace Builtin

def name : Builtin → String
  | .command => "cmd"
  | .openMenu => "open"
  | .closeMenu => "close"
  | .message => "msg"
  | .console => "console"
  | .permission => "perm"
  | .assign => "set"
  | .math => "math"
  | .random => "random"
  | .delay => "delay"
  | .includeScript => "include"
  | .present p => p.name

def all : List Builtin :=
  [.command, .openMenu, .closeMenu, .message, .console, .permission, .assign, .math, .random,
    .delay, .includeScript] ++ Presentation.all.map .present

end Builtin

end MenuScript
