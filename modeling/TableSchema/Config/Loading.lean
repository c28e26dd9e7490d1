import TableSchema.Config.Validation
import TableSchema.Host

/-! Loading of configurations: from a YAML file that is named explicitly or by a variable, from
the file at the default path, or else from the environment alone. -/

namespace TableSchema.Config

open Files

inductive LoadFault where
  | missingFile (path : Path)
  | unreadableFile (fault : FileFault)
  | badEncoding (fault : Text.Utf8.Fault)
  | badYaml (fault : Data.Yaml.Fault)
  | emptyFile (path : Path)
  | invalidFile (path : Path) (reports : List Report)
  /-- The environment describes settings that are no valid configuration. -/
  | invalidSettings (reports : List Report)
  | badSettings (fault : SettingsFault)

namespace LoadFault

/-- What is said about a fault; of problems only their number. -/
def message : LoadFault → String
  | .missingFile path => s!"Config file not found: {path.text}"
  | .unreadableFile fault => fault.message
  | .badEncoding fault => fault.message
  | .badYaml (.value fault) => fault.message
  | .badYaml _ => "The configuration file is no valid YAML"
  | .emptyFile path => s!"Empty configuration file: {path.text}"
  | .invalidFile path reports =>
      s!"Invalid configuration in {path.text}: {problemCount reports}"
  | .invalidSettings reports => problemCount reports
  | .badSettings fault => fault.message

/-- Whether a fault is one of a configuration: its file is missing, or what it says is wrong. A
file that cannot be opened and a text that is no YAML are other matters. -/
def isConfigurationFault : LoadFault → Bool
  | .unreadableFile fault => fault.cause == .notFound
  | .badYaml (.value _) => true
  | .badYaml _ => false
  | _ => true

end LoadFault

def defaultPath : Path := .ofString "config/oneapp-schema.yaml"

def defaultVariable : String := "ONEAPP_SCHEMA_CONFIG"

/-- The value that the octets of a file write. What can be read before octets that are no UTF-8 may
have a fault of its own. -/
def readValue (reader : Data.Yaml.Reader) (octets : List UInt8) : Except LoadFault Value :=
  match decodeText octets with
  | .ok text => (reader.read text.toList).mapError .badYaml
  | .error wrong =>
      match reader.faultBefore? octets with
      | some fault => .error (.badYaml fault)
      | none => .error (.badEncoding (wrong.streamed octets))

def ofFile (host : Host) (path : Path) : Except LoadFault ServiceConfig := do
  if !(← (host.holds path).mapError .unreadableFile) then .error (.missingFile path)
  else
    let octets ← (host.octets path).mapError .unreadableFile
    let value ← readValue host.yaml octets
    if value.isVacant then .error (.emptyFile path)
    else (validate value).mapError (.invalidFile path)

def Settings.toValue (settings : Settings) : Value :=
  .object [
    ("server", .object [("host", .text settings.webHost), ("port", .int settings.webPort)]),
    ("schema_source", .object [
      ("file", if settings.schemaFile.isEmpty then .null else .text settings.schemaFile),
      ("search_paths", .list (settings.searchPaths.map fun path => .text path.text)),
      ("name", .text settings.schemaName)]),
    ("logging", .object [("level", .text settings.logLevel)])]

def ofSettings (settings : Settings) : Validated ServiceConfig := validate settings.toValue

def ofEnvironmentSettings (host : Host) : Except LoadFault ServiceConfig := do
  let settings ← host.settings.mapError .badSettings
  (ofSettings settings).mapError .invalidSettings

/-- The configuration in the file that a variable names, or at the default path, or else the one
that the environment describes. An empty variable names no file. -/
def ofVariable (host : Host) (variableName : String) : Except LoadFault ServiceConfig := do
  match (host.environment.get? variableName).filter (!·.isEmpty) with
  | some path => ofFile host (.ofString path)
  | none =>
      if ← (host.holds defaultPath).mapError .unreadableFile then ofFile host defaultPath
      else ofEnvironmentSettings host

def load (host : Host) (path : Option String) : Except LoadFault ServiceConfig :=
  match path.filter (!·.isEmpty) with
  | some path => ofFile host (.ofString path)
  | none => ofVariable host defaultVariable

end TableSchema.Config
