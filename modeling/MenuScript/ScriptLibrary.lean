import MenuScript.Dictionary
import MenuScript.FileTree

/-! Script libraries: where a script finds the scripts that it includes by name. -/

namespace MenuScript

inductive ScriptLibrary where
  | shelf (scripts : Dictionary String)
  | folder (files : FileTree) (root : String)

namespace ScriptLibrary

def hasDoubleDot : List Char → Bool
  | [] => false
  | c :: rest => (c == '.' && rest.head? == some '.') || hasDoubleDot rest

/-- Whether a name may stand for a file: it names something, has no separator, and has no two
dots in a row, so that it cannot lead out of the directory. -/
def isSafeName (name : String) : Bool :=
  let s := name.toList
  !s.isEmpty && !s.contains '/' && !s.contains '\\' && !hasDoubleDot s

def fileName (name : String) : String := name ++ ".script"

def joinPath (root part : String) : String :=
  if root = "" ∨ root.toList.getLast? = some '/' then root ++ part else root ++ "/" ++ part

/-- The path of a script of the directory `root`, if its name may stand for one. -/
def pathFor? (root name : String) : Option String :=
  if isSafeName name then some (joinPath root (fileName name)) else none

/-- The source of a script, if the library has it and can read it. -/
def load? : ScriptLibrary → String → Option String
  | .shelf scripts, name => scripts.get? name
  | .folder files root, name =>
    match pathFor? root name with
    | none => none
    | some path => (files.readText path).toOption

/-- Puts a script in, in place of any earlier one of its name. -/
def add : ScriptLibrary → String → String → ScriptLibrary
  | .shelf scripts, name, source => .shelf (scripts.insert name source)
  | .folder files root, name, source =>
    .folder (files.put (files.wayTo (joinPath root (fileName name))) source.toUTF8) root

def remove : ScriptLibrary → String → ScriptLibrary
  | .shelf scripts, name => .shelf (scripts.erase name)
  | library, _ => library

end ScriptLibrary

end MenuScript
