import ImageGateway.Settings.Decode
import ImageGateway.Settings.Json
import ImageGateway.Settings.Layers
import ImageGateway.Settings.Substitution
import ImageGateway.Settings.Toml.Parser
import ImageGateway.Settings.Yaml.Document

/-!
# Loading settings

The settings lie in a directory, in files of three names: `default`, the run mode and `local`.
Later ones win, and only the first one must be there.  A name stands for the first file with it that
ends in `.toml`, `.json`, `.yaml` or `.yml`; it counts as there only if one of them is not JSON.  A
file with just that name goes before them, whose format is then told by the name.

* `load` : the settings, with the keys that no setting has, or why there are none.
* `locate` : where to load from, as the environment says.
-/

namespace ImageGateway

namespace Settings

/-- Why settings could not be loaded. -/
inductive LoadError where
  | fileMissing (directory name : String)
  /-- A file is not a table in its format. -/
  | unreadableFile (name : String)
  /-- The name of a file does not tell its format. -/
  | unknownFormat (directory name : String)
  | malformed (cause : DecodeError)
  | invalid (fault : Fault)

/-- The wording of an error; that of an unreadable file names the file alone. -/
def LoadError.message : LoadError → String
  | .fileMissing directory name =>
    "Required config file not found: " ++ directory ++ "/" ++ name ++ ".\x7btoml,yaml,yml\x7d"
  | .unreadableFile name => "Cannot read config file " ++ name
  | .unknownFormat directory name => "configuration file \"" ++ directory ++ "/" ++ name ++
      "\" is not of a registered file format"
  | .malformed cause => "Failed to deserialize settings: " ++ cause.message
  | .invalid fault => fault.message

/-- The files of a directory by name. -/
abbrev Files := String → Option Bytes

/-- The formats of configuration files. -/
inductive Format where
  | toml
  | json
  | yaml
deriving DecidableEq, Repr

/-- What the names of files end in, in the order in which they are looked for. -/
def endings : List (String × Format) :=
  [(".toml", .toml), (".json", .json), (".yaml", .yaml), (".yml", .yaml)]

/-- The text of a file; a byte order mark does not count, and bytes that are not UTF-8 are
replaced. -/
def fileText (bytes : Bytes) : String :=
  Utf8.decodeLossy (match bytes with
    | 0xef :: 0xbb :: 0xbf :: rest => rest
    | _ => bytes)

/-- The table that a text is in a format. -/
def Format.table? (format : Format) (text : String) : Option Table :=
  match format with
  | .toml => Toml.parse? text.toList
  | .json => jsonTable? text
  | .yaml => Yaml.parse? text.toList

/-- The name is there. -/
def isThere (files : Files) (name : String) : Bool :=
  endings.any fun (ending, format) => format != .json && (files (name ++ ending)).isSome

/-- The format that the name of a file tells, which must not be an ending alone. -/
def formatOf? (name : String) : Option Format :=
  (endings.find? fun (ending, _) =>
    (Text.dropEnd? ending name).any fun stem => (stem.toList.getLast?).any (· != '/')).map (·.2)

/-- A file that a name stands for, with its format if that is known. -/
def findFile? (files : Files) (name : String) : Option (String × Option Format × Bytes) :=
  match files name with
  | some bytes => some (name, formatOf? name, bytes)
  -- the name as it stands goes before all endings
  | none => endings.findSome? fun (ending, format) =>
    (files (name ++ ending)).map fun bytes => (name ++ ending, some format, bytes)

/-- The table in the file that a name stands for, if it is there. -/
def readLayer (directory : String) (files : Files) (name : String) :
    Except LoadError (Option Table) :=
  if isThere files name then
    match findFile? files name with
    | none => .ok none
    | some (file, none, _) => .error (.unknownFormat directory file)
    | some (file, some format, bytes) =>
      match format.table? (fileText bytes) with
      | some table => .ok (some table)
      | none => .error (.unreadableFile file)
  else .ok none

/-- The names of the layers, the one that must be there first. -/
def layerNames (runMode : String) : List String := ["default", runMode, "local"]

/-- The names of the files that settings may lie in. -/
def fileNames (runMode : String) : List String :=
  (layerNames runMode).flatMap fun layer =>
    layer :: endings.map fun (ending, _) => layer ++ ending

/-- The merged configuration. -/
def merged (directory runMode : String) (files : Files) : Except LoadError Value :=
  if !isThere files "default" then .error (.fileMissing directory "default")
  else do
    let layers ← (layerNames runMode).mapM (readLayer directory files)
    .ok (layers.reduceOption.foldl addLayer (.table []))

/-- Settings, and the keys in the files that no setting has. -/
structure Loaded where
  settings : Settings
  unknown : List String

/-- The settings that a merged configuration gives. -/
def ofValue (env : Environment) (v : Value) : Except LoadError Loaded := do
  let table := match v.substituted env with
    | .table entries => entries
    | _ => []
  let settings ← (ofTable table).mapError .malformed
  settings.validate.mapError .invalid
  .ok ⟨settings, unknownFields table⟩

/-- Loads the settings from a directory. -/
def load (env : Environment) (directory runMode : String) (files : Files) :
    Except LoadError Loaded := do
  ofValue env (← merged directory runMode files)

/-- Where settings are loaded from. -/
structure Location where
  directory : String
  runMode : String
deriving DecidableEq, Repr

/-- The variable that names the directory. -/
def directoryVariable : String := "REGISTRY_GATE_CONFIG_DIR"

/-- The variable that names the run mode. -/
def runModeVariable : String := "REGISTRY_GATE_CONFIG_RUN_MODE"

/-- The location that the environment names. -/
def locate (env : Environment) : Location where
  directory := (env directoryVariable).getD "config"
  runMode := (env runModeVariable).getD "development"

end Settings

end ImageGateway
