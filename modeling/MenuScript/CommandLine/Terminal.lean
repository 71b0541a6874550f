import MenuScript.CommandLine.Arguments
import MenuScript.CommandLine.Transcript
import MenuScript.Config.Document
import MenuScript.Engine

/-! Running one script at a terminal. The player at the terminal is the only one online and holds
every permission; whatever the script does to the world is shown as a line. -/

namespace MenuScript.CommandLine

/-- Where the files named on the command line come from. -/
structure Surroundings where
  readText : String → Except FileFault String
  library : String → ScriptLibrary
  uuid : Uuid := default
  clock : Clock := Clock.steady 1000
  chance : Chance := ⟨fun _ => 0, 0⟩

/-- Surroundings with the given files, in which paths are followed from their working directory. -/
def Surroundings.ofTree (files : FileTree) : Surroundings where
  readText := files.readText
  library := .folder files

/-- How a run ends: the status it leaves, what it did at the terminal, and what it says on the
error channel. -/
structure Report where
  status : Nat
  entries : List Entry := []
  complaint : String := ""
  /-- The scripts that the run could not include. -/
  missing : List String := []
  deriving DecidableEq, Repr

def Report.output (r : Report) : String := String.join (r.entries.map Entry.text)

def Report.failure (entries : List Entry) (message : String) : Report :=
  { status := 1, entries, complaint := "Error: " ++ message ++ "\n" }

def haltMessage : Halt → String
  | .failed e => e.message
  | .tooDeep => "Scripts are nested too deeply"

/-- The directory of a file: what stands before the last slash of its path. -/
def directoryOf (path : String) : String :=
  match path.toList.reverse.dropWhile (· != '/') with
  | [] => ""
  | ['/'] => "/"
  | _ :: way => String.ofList way.reverse

/-- What is said of settings that cannot be had. The cause of a file that cannot be read is given
once in the message of the fault and once after it. -/
def configComplaint (path : String) (fault : Config.Fault) : String :=
  "loading config " ++ path ++ ": " ++ fault.message ++
    match fault with
    | .unreadable cause => ": " ++ cause.message
    | .malformed => ""

namespace Options

/-- The settings of a run: those of the settings file, under those of the command line. -/
def settings (o : Options) (base : Config) : Config :=
  { base with
    maxCommands := o.maxCommands.getD base.maxCommands
    timeout := o.timeout.getD base.timeout
    allowConsole := base.allowConsole && !o.noConsole }

def scriptDirectory (o : Options) : String := o.scripts.getD (directoryOf o.file)

/-- The variables that a run starts with; of two with one name the later one counts. -/
def startValues (o : Options) : Dictionary Value :=
  Dictionary.ofList (o.bindings.map fun (name, text) => (name, .string text))

def baseConfig (o : Options) (s : Surroundings) : Except String Config :=
  match o.config with
  | none => .ok {}
  | some path => (Config.ofFile (s.readText path)).mapError (configComplaint path)

def runSource (o : Options) (s : Surroundings) (config : Config) (source : String) : Report :=
  let player : Actor := { slot := 0, name := o.player, uuid := s.uuid }
  let server : Server :=
    { library := s.library o.scriptDirectory, clock := s.clock, chance := s.chance }
  let engine : Engine := { config, server := server.welcome player }
  let (outcome, machine) := (engine.machine player o.startValues).run source
  let entries := transcript o.player machine.server.log
  let missing := machine.server.log.missed
  match outcome with
  | .ok value => { status := 0, entries := entries ++ [.line ("=> " ++ value.text)], missing }
  | .error halt => { Report.failure entries (haltMessage halt) with missing }

/-- Runs the script. The script is read before the settings. -/
def run (o : Options) (s : Surroundings) : Report :=
  match s.readText o.file with
  | .error fault => .failure [] ("reading script " ++ o.file ++ ": " ++ fault.message)
  | .ok source =>
    match o.baseConfig s with
    | .error complaint => .failure [] complaint
    | .ok base => o.runSource s (o.settings base) source

end Options

def versionText : String := "guiscript 0.1.0"

def usageText : String := "Usage: guiscript [OPTIONS] <FILE>"

def helpLines : List String :=
  ["Run a GUI action script from the terminal",
    "",
    usageText,
    "",
    "Arguments:",
    "  <FILE>  Script file to run",
    "",
    "Options:",
    "  -p, --player <PLAYER>              Name of the player the script runs as [default: Player]",
    "      --var <VARS>                   Initial variable, as name=value (repeatable)",
    "  -c, --config <CONFIG>              YAML configuration file with a `script:` section",
    "      --max-commands <MAX_COMMANDS>  Override the command ceiling (0 = unlimited)",
    "      --timeout <TIMEOUT>            Override the timeout in milliseconds (0 = none)",
    "      --scripts <SCRIPTS>            Directory holding scripts for `include` "
      ++ "(default: the script's directory)",
    "      --no-console                   Refuse `console:` commands",
    "  -v, --verbose                      Log every executed line",
    "  -h, --help                         Print help",
    "  -V, --version                      Print version"]

def Stop.report : Stop → Report
  | .usage => { status := 2, complaint := "error: invalid arguments\n\n" ++ usageText ++ "\n" }
  | .help => { status := 0, entries := helpLines.map .line }
  | .version => { status := 0, entries := [.line versionText] }

def run (s : Surroundings) (arguments : List String) : Report :=
  match Options.read arguments with
  | .error stop => stop.report
  | .ok options => options.run s

end MenuScript.CommandLine
