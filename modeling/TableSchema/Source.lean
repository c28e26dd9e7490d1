import TableSchema.Host

/-! Where the script with the schema is found: at the explicit path if there is one, on the search
paths, or below a base directory or its parent. The first file that can be read counts. -/

namespace TableSchema

open Files Config

def scriptPath : Path := .ofString "database/schema.sql"

def listedPaths (settings : Settings) (base : Path) : List Path :=
  (if settings.schemaFile.isEmpty then [] else [.ofString settings.schemaFile]) ++
    settings.searchPaths ++ [base ++ scriptPath, base.parent ++ scriptPath]

def distinctPaths (resolve : Path → Except FileFault (List String)) (seen : List (List String)) :
    List Path → Except FileFault (List Path)
  | [] => .ok []
  | path :: rest => do
      let place ← resolve path
      if place ∈ seen then distinctPaths resolve seen rest
      else return path :: (← distinctPaths resolve (place :: seen) rest)

inductive SourceFault where
  | notFound (tried : List Path)
  | badPath (fault : FileFault)
  deriving DecidableEq, Repr

def SourceFault.message : SourceFault → String
  | .notFound _ => "Schema file not found in any expected location"
  | .badPath fault => fault.message

/-- The paths that are tried, each place once. An empty base is the working directory. -/
def candidatePaths (host : Host) (settings : Settings) (base : String) :
    Except SourceFault (List Path) :=
  let base := if base.isEmpty then host.directoryPath else .ofString base
  (distinctPaths host.resolve [] (listedPaths settings base)).mapError .badPath

structure SourceText where
  path : Path
  content : String
  deriving DecidableEq, Repr

/-- The first one of `paths` that leads to a readable text, where `tried` are those that are
tried in all. A path with a null character ends the search. -/
def loadFirst (host : Host) (tried : List Path) : List Path → Except SourceFault SourceText
  | [] => .error (.notFound tried)
  | path :: rest =>
      match host.readText path with
      | .ok content => .ok ⟨path, content⟩
      | .error (.file ⟨.nullCharacter use, path⟩) => .error (.badPath ⟨.nullCharacter use, path⟩)
      | .error _ => loadFirst host tried rest

def loadText (host : Host) (paths : List Path) : Except SourceFault SourceText :=
  loadFirst host paths paths

def readScript (host : Host) (settings : Settings) (base : String) :
    Except SourceFault SourceText := do
  loadText host (← candidatePaths host settings base)

end TableSchema
