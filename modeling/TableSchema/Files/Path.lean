/-! Paths. A path is kept in normal form: without empty steps and without steps that stay where
they are. Steps to the parent are kept, because what they mean depends on the directories
that they leave. -/

namespace TableSchema.Files

/-- Where the steps of a path start. Exactly two slashes at the start of a path are kept apart
from one, although they lead to the same place. -/
inductive Anchor where
  | relative
  | root
  | doubleRoot
  deriving DecidableEq, Repr

structure Path where
  anchor : Anchor
  steps : List String
  deriving DecidableEq, Repr

namespace Path

/-- What a text between slashes adds to a path: a step, unless it is empty or a dot. -/
def stepOf (text : List Char) : List String :=
  if text = [] ∨ text = ['.'] then [] else [String.ofList text]

def stepsFrom (step : List Char) : List Char → List String
  | [] => stepOf step
  | character :: rest =>
      if character = '/' then stepOf step ++ stepsFrom [] rest
      else stepsFrom (step ++ [character]) rest

def anchorOf : List Char → Anchor
  | '/' :: '/' :: '/' :: _ => .root
  | '/' :: '/' :: _ => .doubleRoot
  | '/' :: _ => .root
  | _ => .relative

def ofString (text : String) : Path := ⟨anchorOf text.toList, stepsFrom [] text.toList⟩

def anchorText : Anchor → String
  | .relative => ""
  | .root => "/"
  | .doubleRoot => "//"

def text (path : Path) : String :=
  if path.anchor = .relative && path.steps.isEmpty then "."
  else anchorText path.anchor ++ String.intercalate "/" path.steps

example : (ofString "a//b/./c/").text = "a/b/c" := by decide +kernel

/-- An empty path is the current directory. -/
example : (ofString "").text = "." := by decide +kernel

/-! ## Limits -/

def longestStep : Nat := 255

def lengthLimit : Nat := 4096

def isLongStep (step : String) : Bool := longestStep < step.utf8ByteSize

def isTooLong (path : Path) : Bool := lengthLimit ≤ path.text.utf8ByteSize

def holdsNull (path : Path) : Bool := path.steps.any fun step => step.toList.contains (Char.ofNat 0)

/-! ## Following -/

def parent (path : Path) : Path := { path with steps := path.steps.dropLast }

def append (path other : Path) : Path :=
  if other.anchor = .relative then { path with steps := path.steps ++ other.steps } else other

instance : Append Path := ⟨append⟩

/-- One step from a place; a step to the parent of the root stays there. -/
def follow (place : List String) (step : String) : List String :=
  if step = ".." then place.dropLast else place ++ [step]

/-- The place that a path leads to from a directory, whether there is anything or not. -/
def resolve (directory : List String) (path : Path) : List String :=
  path.steps.foldl follow (if path.anchor = .relative then directory else [])

example : resolve ["srv", "work"] (ofString "../data/./x") = ["srv", "data", "x"] := by
  decide +kernel

end Path

end TableSchema.Files
