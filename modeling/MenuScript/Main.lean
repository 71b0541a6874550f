import MenuScript.CommandLine.Terminal

/-! The program: it reads the files that the command line names, runs the script, and does at the
terminal what the report says. -/

namespace MenuScript.CommandLine

def faultOf : IO.Error → FileFault
  | .inappropriateType _ code _ => if code = 21 then .isDirectory else .notDirectory
  | .invalidArgument .. => .nameTooLong
  | .resourceExhausted .. => .nameTooLong
  | _ => .notFound

def readTextFile (path : String) : IO (Except FileFault String) := do
  try
    match String.fromUTF8? (← IO.FS.readBinFile path) with
    | some text => return .ok text
    | none => return .error .notUtf8
  catch e => return .error (faultOf e)

/-- A stream of numbers of 64 bits that a seed gives. -/
def chanceOf (seed : UInt64) : Chance where
  raw k :=
    let z := seed + (UInt64.ofNat k + 1) * 0x9e3779b97f4a7c15
    let z := (z ^^^ (z >>> 30)) * 0xbf58476d1ce4e5b9
    let z := (z ^^^ (z >>> 27)) * 0x94d049bb133111eb
    (z ^^^ (z >>> 31)).toNat

def drawUuid : IO Uuid := do
  let n ← IO.rand 0 (Nat.pow 2 122 - 1)
  let bits := BitVec.ofNat 122 n
  return ⟨bits.extractLsb' 74 48 ++ 4#4 ++ bits.extractLsb' 62 12 ++ 2#2 ++ bits.extractLsb' 0 62⟩

/-- Runs a script, and fetches the scripts that it turns out to need. Nothing is shown before the
run has ended, so a run that lacked a script can be begun anew. -/
partial def runFetching (o : Options) (s : Surroundings) (tried : List String)
    (shelf : Dictionary String) : IO Report := do
  let report := o.run { s with library := fun _ => .shelf shelf }
  let some name := report.missing.find? (!tried.contains ·) | return report
  let source ← match ScriptLibrary.pathFor? o.scriptDirectory name with
    | some path => readTextFile path
    | none => pure (.error .notFound)
  match source with
  | .ok source => runFetching o s (name :: tried) (shelf.insert name source)
  | .error _ => runFetching o s (name :: tried) shelf

def runHere (arguments : List String) : IO Report := do
  match Options.read arguments with
  | .error stop => return stop.report
  | .ok options =>
    let script ← readTextFile options.file
    let config ← readTextFile (options.config.getD options.file)
    runFetching options
      { readText := fun path => if path = options.file then script else config
        library := fun _ => .shelf ∅
        uuid := ← drawUuid
        chance := chanceOf (UInt64.ofNat (← IO.rand 0 (UInt64.size - 1))) } [] ∅

def perform (output : IO.FS.Stream) : Entry → IO Unit
  | .line text => do
    output.putStr (text ++ "\n")
    output.flush
  | .wait millis => IO.sleep (UInt32.ofNat (min millis (UInt32.size - 1)))

end MenuScript.CommandLine

open MenuScript.CommandLine in
def main (arguments : List String) : IO UInt32 := do
  let report ← runHere arguments
  report.entries.forM (perform (← IO.getStdout))
  (← IO.getStderr).putStr report.complaint
  return UInt32.ofNat report.status
