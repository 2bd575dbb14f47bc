import ImageGateway.Http.Wire
import ImageGateway.Server.Command
import ImageGateway.Server.Handle

/-!
# The program

The outermost layer.  It reads the environment, the files, the clock and random bytes, and passes on
what the library answers.

The command `server` serves the requests of one connection, which the program that accepts
connections hands over on the standard streams.  It opens no connections of its own: the registry
and the directory are out of its reach, and the responses say so.
-/

namespace ImageGateway

namespace Program

/-! ### Settings -/

/-- The contents of a file, if it can be read. -/
def readFile? (path : String) : IO (Option Bytes) := do
  try
    return some (← IO.FS.readBinFile path).data.toList
  catch _ => return none

/-- What is found under some names. -/
def lookUp {α : Type} (read : String → IO (Option α)) (names : List String) :
    IO (String → Option α) := do
  let found ← names.mapM fun name => return (name, ← read name)
  return fun name => (found.find? (·.1 == name)).bind (·.2)

/-- Reads the files and the variables that the settings depend on, and loads them. -/
def loadSettings : IO (Except Settings.LoadError Settings.Loaded) := do
  let location := Settings.locate
    (← lookUp (IO.getEnv ·) [Settings.directoryVariable, Settings.runModeVariable])
  let files ← lookUp (fun name => readFile? (location.directory ++ "/" ++ name))
    (Settings.fileNames location.runMode)
  match Settings.merged location.directory location.runMode files with
  | .error e => return .error e
  | .ok v => return Settings.ofValue (← lookUp (IO.getEnv ·) v.variableNames) v

/-! ### One connection -/

/-- The registry that no call reaches. -/
def unreachableRegistry : Registry.Behaviour Unit := fun state _ => (none, state)

/-- The directory that no question reaches. -/
def unreachableDirectory : Directory := fun _ _ => .error (.connection "unreachable")

/-- Random bytes. -/
def randomBytes (n : Nat) : IO Bytes := return (← IO.getRandomBytes n.toUSize).data.toList

/-- The circumstances of a request that arrives now. -/
def occasion : IO Server.Occasion := do
  return {
    now := ← IO.monoNanosNow
    directory := unreachableDirectory
    token := String.ofList (Base64.encodeUrl (← randomBytes 32))
    requestId := Server.requestIdOfBytes (← randomBytes 16)
    schedule := []
  }

/-- The lines up to an empty one; nothing at the end of the input. -/
partial def readHead (input : IO.FS.Stream) : IO (List String) := do
  let line := Text.trimEnd '\r' (Text.trimEnd '\n' (← input.getLine))
  if line.isEmpty then return [] else return line :: (← readHead input)

/-- As many of the next `n` bytes as there are. -/
partial def readBody (input : IO.FS.Stream) (n : Nat) : IO Bytes := do
  if n = 0 then return []
  let bytes := (← input.read n.toUSize).data.toList
  if bytes.isEmpty then return [] else return bytes ++ (← readBody input (n - bytes.length))

/-- Writes a response. -/
def writeResponse (output : IO.FS.Stream) (r : Http.Response) : IO Unit := do
  output.write ⟨r.onWire.toArray⟩
  output.flush

/-- Serves request after request until the input ends or cannot be read. -/
partial def serveConnection (gateway : Server.Gateway) (input output : IO.FS.Stream)
    (sessions : Session.Store) : IO Unit := do
  let lines ← readHead input
  if lines.isEmpty then return
  match Http.Head.ofLines? lines with
  | none => writeResponse output (Server.emptyResponse 400 [])
  | some head =>
    match head.bodyLength? with
    | none => writeResponse output (Server.emptyResponse 411 [])
    | some n =>
      let request := head.request (← readBody input n) none
      let (served, world) :=
        Server.serveOne gateway unreachableRegistry ⟨sessions, ()⟩ (← occasion) request
      writeResponse output served.response
      serveConnection gateway input output world.sessions

/-! ### Commands -/

/-- Prints a report and gives its exit code. -/
def print (report : Server.Report) : IO UInt32 := do
  IO.print report.output
  IO.eprint report.errors
  return report.exit

/-- Carries out a command and gives the exit code. -/
def execute (arguments : List String) : IO UInt32 := do
  match Server.Command.ofArguments? arguments with
  | none => print Server.Command.misuse
  | some .checkConfig => print (Server.Command.configReport (← loadSettings))
  | some .server =>
    match Server.Command.start (← loadSettings) with
    | .error report => print report
    | .ok (gateway, sessions) =>
      serveConnection gateway (← IO.getStdin) (← IO.getStdout) sessions
      return 0

end Program

end ImageGateway

/-- The program. -/
def main (arguments : List String) : IO UInt32 := ImageGateway.Program.execute arguments
