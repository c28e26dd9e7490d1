import TableSchema.Association
import TableSchema.Files.Path
import TableSchema.Text.Case
import TableSchema.Text.Integer

/-! Settings from environment variables. Every variable has a default, and only the port can be
wrong. -/

namespace TableSchema.Config

open Files Text

/-! ## Environment -/

structure Environment where
  bindings : List (String × String) := []

namespace Environment

def get? (environment : Environment) (name : String) : Option String :=
  environment.bindings.lookup name

def set (environment : Environment) (name : String) : Option String → Environment
  | some value => ⟨Association.set name value environment.bindings⟩
  | none => ⟨Association.erase name environment.bindings⟩

theorem get?_set_same (environment : Environment) (name : String) (value : Option String) :
    (environment.set name value).get? name = value := by
  cases value with
  | some value => exact Association.lookup_set_same name value environment.bindings
  | none => exact Association.lookup_erase_same name environment.bindings

theorem get?_set_other (environment : Environment) {name other : String}
    (different : other ≠ name) (value : Option String) :
    (environment.set name value).get? other = environment.get? other := by
  cases value with
  | some value => exact Association.lookup_set_other different value environment.bindings
  | none => exact Association.lookup_erase_other different environment.bindings

end Environment

/-! ## Settings -/

structure Settings where
  /-- The file to read first; an empty text names none. -/
  schemaFile : String := ""
  searchPaths : List Path := []
  schemaName : String := "oneapp"
  webHost : String := "0.0.0.0"
  webPort : Int := 9840
  logLevel : String := "INFO"
  deriving DecidableEq, Repr

inductive SettingsFault where
  | badPort (fault : IntegerFault)
  deriving DecidableEq, Repr

def SettingsFault.message : SettingsFault → String
  | .badPort fault => fault.message

def splitPaths : List Char → List (List Char)
  | [] => [[]]
  | character :: rest =>
      if character = ':' then [] :: splitPaths rest
      else match splitPaths rest with
        | [] => [[character]]
        | text :: texts => (character :: text) :: texts

def searchPathsOf (list : String) : List Path :=
  ((splitPaths list.toList).filter fun text => !(trim text).isEmpty).map
    fun text => Path.ofString (String.ofList text)

def Settings.ofEnvironment (environment : Environment) : Except SettingsFault Settings :=
  let port := (environment.get? "WEB_PORT").getD "9840"
  match readInteger port with
  | .error fault => .error (.badPort fault)
  | .ok webPort => .ok {
      schemaFile := (environment.get? "SCHEMA_FILE").getD ""
      searchPaths := searchPathsOf ((environment.get? "SCHEMA_SEARCH_PATHS").getD "")
      schemaName := (environment.get? "SCHEMA_NAME").getD "oneapp"
      webHost := (environment.get? "WEB_HOST").getD "0.0.0.0"
      webPort
      logLevel :=
        String.ofList (upper ((environment.get? "LOG_LEVEL").getD "INFO").toList) }

/-- Without any variable the settings are the default ones. -/
example : (Settings.ofEnvironment {}).toOption = some {} := by decide +kernel

end TableSchema.Config
