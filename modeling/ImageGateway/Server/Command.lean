import ImageGateway.Server.Gateway
import ImageGateway.Settings.Load

/-!
# The command line

* `check-config` loads the settings and says whether they are valid.
* `server` loads the settings and starts the gateway.
-/

namespace ImageGateway

namespace Server

/-- What the program is asked to do. -/
inductive Command where
  | checkConfig
  | server
deriving DecidableEq, Repr

/-- What the program prints before it ends, and its exit code. -/
structure Report where
  exit : UInt32
  output : String
  errors : String
deriving DecidableEq, Repr

namespace Command

/-- The command that the arguments name. -/
def ofArguments? : List String → Option Command
  | ["check-config"] => some .checkConfig
  | ["server"] => some .server
  | _ => none

/-- What is printed for arguments that name no command. -/
def usage : String := "Usage: registry-gate <COMMAND>\n\nCommands:\n" ++
  "  server        Start the gateway HTTP server\n" ++
  "  check-config  Check configuration for errors and unused options\n"

/-- Arguments that name no command. -/
def misuse : Report := ⟨2, "", usage⟩

/-- The report on the settings. -/
def configReport (loaded : Except Settings.LoadError Settings.Loaded) : Report :=
  let heading := "Checking configuration...\n"
  match loaded with
  | .ok _ => ⟨0, heading ++ "✓ Configuration is valid\n", ""⟩
  | .error e => ⟨1, heading, "✗ Configuration error: " ++ e.message ++ "\n"⟩

/-- The gateway that is started, or the report on why there is none. -/
def start (loaded : Except Settings.LoadError Settings.Loaded) :
    Except Report (Gateway × Session.Store) :=
  match loaded with
  | .error e => .error ⟨1, "", "Error: " ++ e.message ++ "\n"⟩
  | .ok l =>
    match Gateway.ofSettings l.settings with
    | .ok started => .ok started
    | .error .lifetimeTooLong => .error ⟨101, "", BuildError.lifetimeTooLong.message ++ "\n"⟩
    | .error e => .error ⟨1, "", "Error: " ++ e.message ++ "\n"⟩

end Command

end Server

end ImageGateway
