import TableSchema.Association
import TableSchema.Files.Path
import TableSchema.Text.Lines
import TableSchema.Text.Quoted
import TableSchema.Text.Utf8

/-! File trees. A tree says what there is at each place: a directory, or a file with its octets.
There are no links, so a path can be followed step by step. -/

namespace TableSchema.Files

inductive Node where
  | directory
  | file (octets : List UInt8)
  deriving DecidableEq, Repr

/-- Places that hold something; a later entry for a place is hidden by an earlier one. The root
is a directory even if no entry says so. -/
structure Tree where
  entries : List (List String × Node) := []

/-! ## Faults -/

inductive PathUse where
  | openFile
  | resolve
  | makeDirectory
  | remove
  deriving DecidableEq, Repr

inductive FaultCause where
  | notFound
  | occupied
  | notDirectory
  | isDirectory
  | nameTooLong
  /-- A path with a null character is refused before it is followed. -/
  | nullCharacter (use : PathUse)
  deriving DecidableEq, Repr

structure FileFault where
  cause : FaultCause
  path : Path
  deriving DecidableEq, Repr

def FileFault.message (fault : FileFault) : String :=
  let about (what : String) := s!"{what}: {Text.display fault.path.text}"
  match fault.cause with
  | .notFound => about "[Errno 2] No such file or directory"
  | .occupied => about "[Errno 17] File exists"
  | .notDirectory => about "[Errno 20] Not a directory"
  | .isDirectory => about "[Errno 21] Is a directory"
  | .nameTooLong => about "[Errno 36] File name too long"
  | .nullCharacter _ => "embedded null byte"

/-! ## Looking -/

namespace Tree

def at? (tree : Tree) (place : List String) : Option Node :=
  if place = [] then some .directory else tree.entries.lookup place

/-- Follow steps from a place, at which something must be. Only from a directory a step leads
anywhere, if it is not too long. -/
def walk (tree : Tree) (place : List String) : List String → Except FaultCause (List String)
  | [] => .ok place
  | step :: rest =>
      match tree.at? place with
      | some .directory =>
          let next := Path.follow place step
          if Path.isLongStep step then .error .nameTooLong
          else if (tree.at? next).isSome then tree.walk next rest
          else .error .notFound
      | some (.file _) => .error .notDirectory
      | none => .error .notFound

def find (tree : Tree) (directory : List String) (path : Path) (use : PathUse) :
    Except FileFault (List String) :=
  if path.holdsNull then .error ⟨.nullCharacter use, path⟩
  else if path.isTooLong then .error ⟨.nameTooLong, path⟩
  else
    (tree.walk (if path.anchor = .relative then directory else []) path.steps).mapError
      fun cause => ⟨cause, path⟩

/-- Whether a path leads to anything. Of a name that is too long this cannot be told. -/
def holds (tree : Tree) (directory : List String) (path : Path) : Except FileFault Bool :=
  match tree.find directory path .openFile with
  | .ok _ => .ok true
  | .error fault => if fault.cause = .nameTooLong then .error fault else .ok false

def octets (tree : Tree) (directory : List String) (path : Path) :
    Except FileFault (List UInt8) := do
  let place ← tree.find directory path .openFile
  match tree.at? place with
  | some (.file octets) => .ok octets
  | _ => .error ⟨.isDirectory, path⟩

/-! ## Changing -/

def put (tree : Tree) (place : List String) (node : Node) : Tree :=
  ⟨Association.set place node tree.entries⟩

theorem at?_put_same (tree : Tree) {place : List String} (below : place ≠ []) (node : Node) :
    (tree.put place node).at? place = some node := by
  simp [at?, put, below, Association.lookup_set_same]

theorem at?_put_other (tree : Tree) {place other : List String} (different : other ≠ place)
    (node : Node) : (tree.put place node).at? other = tree.at? other := by
  simp [at?, put, Association.lookup_set_other different]

def makeSteps (tree : Tree) (place : List String) :
    List String → Except FaultCause (Tree × List String)
  | [] => .ok (tree, place)
  | step :: rest =>
      let next := Path.follow place step
      if Path.isLongStep step then .error .nameTooLong
      else match tree.at? next with
        | some .directory => tree.makeSteps next rest
        | some (.file _) => .error (if rest.isEmpty then .occupied else .notDirectory)
        | none => (tree.put next .directory).makeSteps next rest

def makeDirectory (tree : Tree) (directory : List String) (path : Path) :
    Except FileFault Tree :=
  if path.holdsNull then .error ⟨.nullCharacter .makeDirectory, path⟩
  else if path.isTooLong then .error ⟨.nameTooLong, path⟩
  else match tree.makeSteps (if path.anchor = .relative then directory else []) path.steps with
    | .ok (tree, _) => .ok tree
    | .error cause => .error ⟨cause, path⟩

def write (tree : Tree) (directory : List String) (path : Path) (octets : List UInt8) :
    Except FileFault Tree := do
  let tree ← tree.makeDirectory directory path.parent
  let place := path.resolve directory
  if path.holdsNull then .error ⟨.nullCharacter .openFile, path⟩
  else if path.isTooLong || (path.steps.getLast?.any Path.isLongStep) then
    .error ⟨.nameTooLong, path⟩
  else if tree.at? place = some .directory then .error ⟨.isDirectory, path⟩
  else .ok (tree.put place (.file octets))

def remove (tree : Tree) (directory : List String) (path : Path) : Except FileFault Tree := do
  let place ← tree.find directory path .remove
  .ok ⟨tree.entries.filter fun entry => !place.isPrefixOf entry.1⟩

end Tree

/-! ## Texts -/

inductive ReadFault where
  | file (fault : FileFault)
  | encoding (fault : Text.Utf8.Fault)

def ReadFault.message : ReadFault → String
  | .file fault => fault.message
  | .encoding fault => fault.message

def decodeText (octets : List UInt8) : Except Text.Utf8.Fault String :=
  (Text.Utf8.decode octets).map fun text => String.ofList (Text.unifyLineEnds text)

def Tree.readText (tree : Tree) (directory : List String) (path : Path) :
    Except ReadFault String := do
  let octets ← (tree.octets directory path).mapError .file
  (decodeText octets).mapError .encoding

end TableSchema.Files
