import TableSchema.Config.Settings
import TableSchema.Data.Value

/-! The configuration of the service: where it listens, where it finds the schema, and how it
logs. -/

namespace TableSchema.Config

open Files

inductive LogLevel where
  | debug
  | info
  | warning
  | error
  deriving DecidableEq, Repr

namespace LogLevel

def all : List LogLevel := [.debug, .info, .warning, .error]

def name : LogLevel → String
  | .debug => "DEBUG"
  | .info => "INFO"
  | .warning => "WARNING"
  | .error => "ERROR"

def ofName? (name : String) : Option LogLevel := all.find? (·.name = name)

end LogLevel

structure ServerConfig where
  host : String := "0.0.0.0"
  port : Nat := 9840
  deriving DecidableEq, Repr

structure SourceConfig where
  file : Option String := none
  searchPaths : List String := []
  name : String := "oneapp"
  deriving DecidableEq, Repr

def defaultLogFormat : String := "%(asctime)s %(levelname)s %(name)s: %(message)s"

structure LoggingConfig where
  level : LogLevel := .info
  format : String := defaultLogFormat
  deriving DecidableEq, Repr

structure ServiceConfig where
  server : ServerConfig := {}
  source : SourceConfig := {}
  logging : LoggingConfig := {}
  deriving DecidableEq, Repr

namespace ServiceConfig

def toValue (config : ServiceConfig) : Value :=
  .object [
    ("server", .object [("host", .text config.server.host), ("port", .int config.server.port)]),
    ("schema_source", .object [
      ("file", match config.source.file with | some file => .text file | none => .null),
      ("search_paths", .list (config.source.searchPaths.map .text)),
      ("name", .text config.source.name)]),
    ("logging", .object [
      ("level", .text config.logging.level.name), ("format", .text config.logging.format)])]

def settings (config : ServiceConfig) : Settings where
  schemaFile := config.source.file.getD ""
  searchPaths := config.source.searchPaths.map Path.ofString
  schemaName := config.source.name
  webHost := config.server.host
  webPort := config.server.port
  logLevel := config.logging.level.name

def overwrite (config : ServiceConfig) (settings : Settings) : Settings :=
  { settings with
    webHost := config.server.host
    webPort := config.server.port
    schemaFile := config.source.file.getD ""
    searchPaths := config.source.searchPaths.map Path.ofString
    schemaName := config.source.name
    logLevel := config.logging.level.name }

/-- The settings of a configuration, for code that runs in an environment. They take the place of
those that the environment describes, but it has to describe some. -/
def settingsIn (config : ServiceConfig) (environment : Environment) :
    Except SettingsFault Settings :=
  (Settings.ofEnvironment environment).map config.overwrite

end ServiceConfig

end TableSchema.Config
