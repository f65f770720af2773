import PointElevation.Server.CommandLine
import PointElevation.Server.Settings

/-!
# Starting the server

The command line and two facts about the surroundings settle how the server is reached: standard
streams or an address.  Where the command line does not say it, streams are taken if a variable asks
for them or if nobody sits at the terminal.
-/

namespace PointElevation.Server

/-- How the server is reached. -/
inductive Transport where
  | streams
  | address (host : String) (port : Int)
deriving DecidableEq, Repr

/-- A server to be started, and what is said about it. -/
structure Launch where
  transport : Transport
  banner : String
deriving DecidableEq, Repr

/-- The variable that asks for streams. -/
def streamsVariable : String := "MCP_STDIO"

/-- A server on streams. -/
def onStreams (remark : String) : Launch :=
  ⟨.streams, "swissalti3d MCP Server starting in STDIO mode" ++ remark⟩

/-- A server at an address. -/
def atAddress (a : Arguments) : Launch :=
  ⟨.address a.host a.port,
    "swissalti3d MCP Server starting in HTTP mode on " ++ a.host ++ ":" ++ toString a.port⟩

/-- Whether the surroundings ask for streams. -/
def wantsStreams (environment : Environment) (isTerminal : Bool) : Bool :=
  ((environment.lookup streamsVariable).getD "") ≠ "" || !isTerminal

/-- The server that is asked for. -/
def launch (a : Arguments) (environment : Environment) (isTerminal : Bool) : Launch :=
  match a.mode with
  | some .stdio => onStreams ""
  | some .http => atAddress a
  | none =>
      if wantsStreams environment isTerminal then onStreams " (auto-detected)" else atAddress a

/-- The server that a command line asks for.  It runs once, and whatever ends it, its provider is
released afterwards. -/
def start (arguments : List String) (environment : Environment) (isTerminal : Bool) :
    Except Halt Launch :=
  (Arguments.parse arguments).map fun a => launch a environment isTerminal

/-- The name of the program in messages. -/
def programName : String := "server"

/-- The line that shows how the program is called. -/
def usageLine : String :=
  "usage: " ++ programName ++ " [-h] [--host HOST] [--port PORT] [\x7bstdio,http\x7d]"

/-- What is written when help is asked for. -/
def helpText : String :=
  "\n".intercalate
    [usageLine,
     "",
     "swissalti3d MCP Server",
     "",
     "positional arguments:",
     "  \x7bstdio,http\x7d  Transport mode (stdio for Claude Desktop, http for API)",
     "",
     "options:",
     "  -h, --help    show this help message and exit",
     "  --host HOST   Host for HTTP mode (default: localhost)",
     "  --port PORT   Port for HTTP mode (default: 8004)"]

/-- What is written about a command line that is refused. -/
def usageError (fault : UsageFault) : String := programName ++ ": error: " ++ fault.message

/-- The status with which the program ends when the server does not start. -/
def Halt.status : Halt → Nat
  | .help => 0
  | .usage _ => 2

/-- What is written to the error stream when the server does not start. -/
def Halt.text : Halt → String
  | .help => ""
  | .usage fault => usageError fault

end PointElevation.Server
