import TableSchema.CommandLine.Arguments
import TableSchema.Config.Loading
import TableSchema.Config.LogFormat
import TableSchema.Report

/-! Running a command line. A script is parsed and printed, or checked, or the service is
started; what a command does to the world outside is part of its outcome. -/

namespace TableSchema.CommandLine

open Config Files

structure Served where
  host : String
  port : Int
  settings : Settings
  deriving DecidableEq, Repr

structure Completion where
  exitCode : Nat
  output : String := ""
  /-- What is said about a fault that ends the command. -/
  complaint : Option String := none
  served : Option Served := none
  deriving DecidableEq, Repr

inductive UnhandledFault where
  | config (fault : LoadFault)
  | badLogFormat (format : String)
  | settings (fault : SettingsFault)
  | render (fault : RenderFault)
  | path (fault : FileFault)
  | noFormat

def UnhandledFault.message : UnhandledFault → String
  | .config fault => fault.message
  | .badLogFormat format => badLogFormatMessage format
  | .settings fault => fault.message
  | .render fault => fault.message
  | .path fault => fault.message
  | .noFormat => "'list' object has no attribute 'lower'"

inductive Outcome where
  | usage (fault : UsageFault)
  | completed (completion : Completion)
  | unhandled (fault : UnhandledFault)

def Outcome.complain (complaint : String) : Outcome :=
  .completed { exitCode := 2, complaint := some complaint }

def readInput (host : Host) (input : String) (file : String) : Except ReadFault String :=
  if file = "-" then .ok (String.ofList (Text.unifyLineEnds input.toList))
  else host.readText (.ofString file)

def unreadInput : ReadFault → Outcome
  | .file ⟨.nullCharacter use, path⟩ => .unhandled (.path ⟨.nullCharacter use, path⟩)
  | fault => .complain s!"Error: {fault.message}"

def runParse (host : Host) (input : String) (arguments : ParseArguments) : Outcome :=
  match readInput host input arguments.file, arguments.format with
  | .error fault, _ => unreadInput fault
  | .ok _, none => .unhandled .noFormat
  | .ok sql, some format =>
      match (parseDocument sql).render format arguments.dialect host.translator with
      | .ok text => .completed { exitCode := 0, output := text }
      | .error (.notExported fault) => .complain s!"Error: {fault.message}"
      | .error fault => .unhandled (.render fault)

/-- Check a script. A script without tables has exit code 1. -/
def runCheck (host : Host) (input : String) (file : String) : Outcome :=
  match readInput host input file with
  | .error fault => unreadInput fault
  | .ok sql =>
      let result := parse sql
      .completed {
        exitCode := if result.document.isEmpty then 1 else 0
        output := result.report ++ "\n" }

/-- Start the service. An empty host and a port of zero count as not given. -/
def runServe (host : Host) (config : ServiceConfig) (arguments : ServeArguments) : Outcome :=
  match config.settingsIn host.environment with
  | .error fault => .unhandled (.settings fault)
  | .ok settings => .completed {
      exitCode := 0
      served := some {
        host := (arguments.host.filter (!·.isEmpty)).getD config.server.host
        port := (arguments.port.filter (· ≠ 0)).getD config.server.port
        settings } }

def Command.config? : Command → Option String
  | .serve arguments => arguments.config
  | _ => none

def run (host : Host) (input : String) (arguments : List String) : Outcome :=
  match invocation arguments with
  | .error fault => .usage fault
  | .ok invocation =>
      match load host invocation.command.config? with
      | .error fault =>
          if fault.isConfigurationFault then
            .complain s!"Configuration error: {fault.message}"
          else .unhandled (.config fault)
      | .ok config =>
          if !isUsableLogFormat config.logging.format then
            .unhandled (.badLogFormat config.logging.format)
          else match invocation.command with
            | .parse arguments => runParse host input arguments
            | .check file => runCheck host input file
            | .serve arguments => runServe host config arguments

end TableSchema.CommandLine
