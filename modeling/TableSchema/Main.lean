import TableSchema.CommandLine.Run

/-! The program. It looks at the files that a command line may be about, runs the command line on
what it has seen, and prints the outcome. -/

namespace TableSchema.Program

open Files CommandLine

/-- What there is at a path, if it can be seen. A directory is known by the fault of reading it
as a file. -/
def observeNode (path : String) : IO (Option Node) := do
  try
    return some (.file (← IO.FS.readBinFile path).toList)
  catch
    | .inappropriateType .. | .illegalOperation .. => return some .directory
    | _ => return none

def observePath (directory : List String) (tree : Tree) (path : Path) : IO Tree := do
  let mut tree := tree
  for steps in List.range (path.steps.length + 1) do
    let shorter : Path := { path with steps := path.steps.take steps }
    match ← observeNode shorter.text with
    | some node => tree := tree.put (shorter.resolve directory) node
    | none => pure ()
  return tree

def configVariables : List String := [
  Config.defaultVariable, "SCHEMA_FILE", "SCHEMA_SEARCH_PATHS", "SCHEMA_NAME", "WEB_HOST",
  "WEB_PORT", "LOG_LEVEL"]

def relevantPaths (arguments : List String) (environment : Config.Environment) : List Path :=
  let named := match invocation arguments with
    | .ok ⟨_, .parse arguments⟩ => [arguments.file]
    | .ok ⟨_, .check file⟩ => [file]
    | .ok ⟨_, .serve arguments⟩ => arguments.config.toList
    | .error _ => []
  Config.defaultPath ::
    (named ++ (environment.get? Config.defaultVariable).toList).map Path.ofString

def observeHost (arguments : List String) : IO Host := do
  let directory := (Path.ofString (← IO.currentDir).toString).steps
  let mut environment : Config.Environment := {}
  for name in configVariables do
    environment := environment.set name (← IO.getEnv name)
  let mut files : Tree := {}
  files := files.put directory .directory
  for path in relevantPaths arguments environment do
    files ← observePath directory files path
  return { files, directory, environment }

partial def readRest (stream : IO.FS.Stream) (before : String) : IO String := do
  let line ← stream.getLine
  if line.isEmpty then return before else readRest stream (before ++ line)

def readCommandInput (arguments : List String) : IO String := do
  match invocation arguments with
  | .ok ⟨_, .parse { file := "-", .. }⟩ | .ok ⟨_, .check "-"⟩ => readRest (← IO.getStdin) ""
  | _ => return ""

def usageText : String :=
  "usage: oneapp-schema [-h] [--log-level LEVEL] [parse|check|serve] ..."

end TableSchema.Program

open TableSchema Program in
def main (arguments : List String) : IO UInt32 := do
  let host ← observeHost arguments
  let input ← readCommandInput arguments
  match CommandLine.run host input arguments with
  | .usage .help =>
      IO.println usageText
      return 0
  | .usage _ =>
      IO.eprintln usageText
      return 2
  | .unhandled fault =>
      IO.eprintln fault.message
      return 1
  | .completed completion =>
      IO.print completion.output
      if let some complaint := completion.complaint then IO.eprintln complaint
      if let some served := completion.served then
        IO.eprintln s!"Schema API on {served.host}:{served.port}"
      return UInt32.ofNat completion.exitCode
