/-
  ErrorContract.CommandLine.Startup
  ─────────────────────────────────
  **FROM ARGUMENTS TO A SERVER, AND TO THE END OF THE PROGRAM.**

      arguments  →  settings  →  telemetry  →  server  →  listening

  The first step that fails ends the program, with a code that tells which
  it was.  An address among the arguments replaces the one in the settings.
  A server that listens is told to stop, and stops.
-/
import ErrorContract.CommandLine.Arguments
import ErrorContract.Config.Load
import ErrorContract.Server.Basic
import ErrorContract.Telemetry.Export
import ErrorContract.Telemetry.LogFilter

namespace ErrorContract.CommandLine

open ErrorContract Telemetry

/-! ## §1. Settings. -/

/-- The files that can be read, by their paths. -/
abbrev Files := String → Option (List UInt8)

/-- The settings in the file that is named, or the defaults if none is. -/
def loadConfig (env : Environment) (files : Files) (path : Option String) :
    Except Config.LoadFault Config :=
  match path with
  | some path => Config.load env path (files path)
  | none => .ok {}

/-- Settings with the address replaced, if another one is given. -/
def withListen (c : Config) (listen : Option Net.SocketAddress) : Config :=
  match listen with
  | some address => { c with server := { c.server with listenAddress := some address } }
  | none => c

/-- **The settings that the program starts with.** -/
def settings (env : Environment) (files : Files) (a : Arguments) :
    Except Config.LoadFault Config := do
  return withListen (← loadConfig env files a.config) a.listen

/-! ## §2. Starting. -/

/-- Why the program ends before it listens. -/
inductive StartFault where
  | arguments (fault : Fault)
  | config (fault : Config.LoadFault)
  | telemetry (fault : SetupFault)
  /-- The server cannot be built; by then something was logged. -/
  | routes (fault : Http.RouteFault) (a : Arguments) (c : Config)

/-- A program that is about to listen. -/
structure Started where
  arguments : Arguments
  config : Config
  server : Server

/-- **Start**: the server, or what ends the program instead. -/
def start (env : Environment) (files : Files) (arguments : List String) :
    Except StartFault Started := do
  let a ← (Arguments.parse env arguments).mapError .arguments
  let c ← (settings env files a).mapError .config
  let _ ← (setUp c.telemetry).mapError .telemetry
  let s ← (Server.bare c).mapError fun fault => .routes fault a c
  return ⟨a, c, s⟩

/-! ## §3. What is logged. -/

/-- A line of the log. -/
structure LogLine where
  level : Level
  target : String
  text : String
  deriving Repr, DecidableEq

/-- A line as it is written. -/
def LogLine.render (l : LogLine) : String :=
  l.level.name.toUpper ++ " " ++ l.target ++ ": " ++ l.text

/-- The lines that a filter lets pass, as they are written. -/
def logged (filter : LogFilter) (lines : List LogLine) : List String :=
  (lines.filter fun l => filter.lets l.target l.level).map LogLine.render

/-- A line of the program itself. -/
def programLine (text : String) : LogLine := ⟨.info, "dbfront", text⟩

/-- A line of the server. -/
def serverLine (text : String) : LogLine := ⟨.info, "dbfront_server", text⟩

/-- A path that may be absent, as the log shows it. -/
def pathText : Option String → String
  | none => "None"
  | some path => "Some(" ++ Quoted.text path ++ ")"

/-- A truth value, as the log shows it. -/
def truthText (b : Bool) : String := if b then "true" else "false"

/-- What is logged when the program has its settings. -/
def startingLine (a : Arguments) (c : Config) : LogLine :=
  programLine <| "starting dbfront config_path=" ++ pathText a.config ++
    " expose_internal_messages=" ++ truthText c.errors.exposeInternalMessages

/-- What is logged while the server listens and stops; `bound` is where it listens. -/
def servingLines (bound : String) : List LogLine := [
  serverLine ("server listening local_addr=" ++ bound),
  programLine "shutdown signal received",
  serverLine "graceful shutdown initiated",
  programLine "dbfront stopped"]

/-! ## §4. The end of the program. -/

/-- How the program ends. -/
structure Ending where
  code : Nat
  /-- The lines of its output. -/
  output : List String
  /-- What it says of the reason, if that is an error. -/
  error : String
  deriving Repr, DecidableEq

/-- How the program is called. -/
def usage : String :=
  "Usage: dbfront [--config FILE] [--listen ADDRESS] [--log-filter FILTER]"

/-- What is said of a reason to end. -/
def errorText (message : String) : String := "Error: " ++ message ++ "\n"

/-- How a program ends that was told something it does not understand. -/
def Fault.ending : Fault → Ending
  | .displayHelp => ⟨0, [usage], ""⟩
  | _ => ⟨2, [], "error: " ++ usage ++ "\n"⟩

/-- How a program ends that does not come to listen. -/
def StartFault.ending : StartFault → Ending
  | .arguments fault => fault.ending
  | .config fault => ⟨1, [], errorText fault.message⟩
  | .telemetry fault => ⟨1, [], errorText fault.message⟩
  | .routes _ a c =>
    ⟨101, logged (.ofText a.logFilter) [startingLine a c], "the health path cannot be served\n"⟩

/-- **Run the program.** `bound` gives the text of where a server listens that was told an
address. -/
def run (env : Environment) (files : Files) (bound : Net.SocketAddress → String)
    (arguments : List String) : Ending :=
  match start env files arguments with
  | .error fault => fault.ending
  | .ok s =>
    let lines := startingLine s.arguments s.config :: servingLines (bound s.server.listenAddress)
    ⟨0, logged (.ofText s.arguments.logFilter) lines, ""⟩

end ErrorContract.CommandLine
