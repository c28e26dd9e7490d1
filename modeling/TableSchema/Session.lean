import TableSchema.CommandLine.Run
import TableSchema.Web.Service

/-! Sessions. A session is a host together with a web service that runs on it: the settings that
the service was started with, and its memory of parsed scripts. Steps change the host from
outside, ask the library, run commands, or send requests to the service. -/

namespace TableSchema

open Files Config

structure Session where
  host : Host
  appSettings : Option Settings := none
  cache : ParseCache := {}

/-! ## Steps -/

structure SettingsChange where
  schemaFile : Option String := none
  searchPaths : Option (List String) := none

inductive ConfigOrigin where
  | load (path : Option String)
  | yaml (path : String)
  | settings
  | variable (name : String)

inductive SessionStep where
  | write (path : String) (octets : List UInt8)
  | makeDirectory (path : String)
  | remove (path : String)
  | setVariables (changes : List (String × Option String))
  | settings
  | candidates (change : SettingsChange) (base : String)
  | load (paths : List String)
  | read (change : SettingsChange) (base : String)
  | config (origin : ConfigOrigin)
  /-- Start the service with a configuration file, or without settings. -/
  | app (config : Option String)
  | parseCached (sql : String)
  | command (arguments : List String) (input : String)
  | request (request : Web.Request)

inductive SessionFault where
  | file (fault : FileFault)
  | nullInVariable
  | settings (fault : SettingsFault)
  | source (fault : SourceFault)
  | config (fault : LoadFault)

inductive SessionAnswer where
  | done
  | settings (settings : Settings)
  | paths (paths : List Path)
  | source (source : SourceText)
  | config (config : ServiceConfig)
  /-- A document, and whether it was remembered. -/
  | document (document : Document) (remembered : Bool)
  | outcome (outcome : CommandLine.Outcome)
  | response (response : Web.Response)
  | failed (fault : SessionFault)

/-! ## What steps do -/

namespace SettingsChange

def applyTo (change : SettingsChange) (settings : Settings) : Settings :=
  { settings with
    schemaFile := change.schemaFile.getD settings.schemaFile
    searchPaths := (change.searchPaths.map (·.map Path.ofString)).getD settings.searchPaths }

def settings (change : SettingsChange) (host : Host) : Except SessionFault Settings :=
  (host.settings.map change.applyTo).mapError .settings

end SettingsChange

def ConfigOrigin.config (origin : ConfigOrigin) (host : Host) : Except LoadFault ServiceConfig :=
  match origin with
  | .load path => Config.load host path
  | .yaml path => ofFile host (.ofString path)
  | .settings => ofEnvironmentSettings host
  | .variable name => ofVariable host name

def appSettingsOf (host : Host) (config : Option String) :
    Except SessionFault (Option Settings) :=
  match config with
  | none => .ok none
  | some path => do
      let config ← (Config.load host (some path)).mapError .config
      some <$> (config.settingsIn host.environment).mapError .settings

def holdsNull (text : String) : Bool := text.toList.contains (Char.ofNat 0)

namespace Session

def withFiles (session : Session) : Except FileFault Tree → SessionAnswer × Session
  | .ok files => (.done, { session with host := { session.host with files } })
  | .error fault => (.failed (.file fault), session)

def answering (session : Session) (answer : α → SessionAnswer) :
    Except SessionFault α → SessionAnswer × Session
  | .ok found => (answer found, session)
  | .error fault => (.failed fault, session)

def step (session : Session) (next : SessionStep) : SessionAnswer × Session :=
  let host := session.host
  match next with
  | .write path octets =>
      session.withFiles (host.files.write host.directory (.ofString path) octets)
  | .makeDirectory path =>
      session.withFiles (host.files.makeDirectory host.directory (.ofString path))
  | .remove path => session.withFiles (host.files.remove host.directory (.ofString path))
  | .setVariables changes =>
      let (usable, rest) := changes.span fun (_, value) => !value.any holdsNull
      let environment := usable.foldl (fun environment (name, value) =>
        environment.set name value) host.environment
      (if rest.isEmpty then .done else .failed .nullInVariable,
        { session with host := { host with environment } })
  | .settings => session.answering .settings (host.settings.mapError .settings)
  | .candidates change base =>
      session.answering .paths ((change.settings host).bind fun settings =>
        (candidatePaths host settings base).mapError .source)
  | .load paths =>
      session.answering .source ((loadText host (paths.map Path.ofString)).mapError .source)
  | .read change base =>
      session.answering .source ((change.settings host).bind fun settings =>
        (readScript host settings base).mapError .source)
  | .config origin => session.answering .config ((origin.config host).mapError .config)
  | .app config =>
      match appSettingsOf host config with
      | .ok appSettings => (.done, { session with appSettings })
      | .error fault => (.failed fault, session)
  | .parseCached sql =>
      let (document, cache) := session.cache.parseDocument sql
      (.document document (session.cache.remembers sql), { session with cache })
  | .command arguments input =>
      let outcome := CommandLine.run host input arguments
      match outcome with
      | .completed { served := some served, .. } =>
          (.outcome outcome, { session with appSettings := some served.settings })
      | _ => (.outcome outcome, session)
  | .request request =>
      let (response, cache) :=
        Web.respond ⟨host, session.appSettings⟩ session.cache request
      (.response response, { session with cache })

def run (session : Session) : List SessionStep → List SessionAnswer × Session
  | [] => ([], session)
  | next :: rest =>
      let (answer, session) := session.step next
      let (answers, session) := session.run rest
      (answer :: answers, session)

end Session

end TableSchema
