import TableSchema.Data.Yaml.Fault

/-! Places in a YAML text. Line ends have been unified, but three more characters end a line: the
next-line control and the separators of lines and paragraphs.

Readers take bounds that are greater than the number of the characters that are left, or of the
lines or pieces among them, so that they never come to the end of a bound. -/

namespace TableSchema.Data.Yaml

structure Place where
  index : Nat := 0
  line : Nat := 0
  column : Nat := 0
  rest : List Char

/-- The mark that may stand at the start of a text; it takes no column. -/
def byteOrderMark : Char := Char.ofNat 0xFEFF

def nextLine : Char := Char.ofNat 0x85

def isBreak (character : Char) : Bool :=
  character == '\n' || character == nextLine || character == Char.ofNat 0x2028 ||
    character == Char.ofNat 0x2029

def breakChar (character : Char) : Char := if character = nextLine then '\n' else character

def endsWord : List Char → Bool
  | [] => true
  | character :: _ => character == ' ' || isBreak character

def endsToken (text : List Char) : Bool := endsWord text || text.head? == some '\t'

namespace Place

def step (place : Place) : Place :=
  match place.rest with
  | [] => place
  | character :: rest =>
      if isBreak character then ⟨place.index + 1, place.line + 1, 0, rest⟩
      else if character = byteOrderMark then { place with index := place.index + 1, rest }
      else ⟨place.index + 1, place.line, place.column + 1, rest⟩

def skip (place : Place) : (count : Nat) → Place
  | 0 => place
  | count + 1 => place.step.skip count

def head? (place : Place) : Option Char := place.rest.head?

def isAtBreak (place : Place) : Bool := place.head?.any isBreak

def skipSpaces (place : Place) : Place := place.skip (place.rest.takeWhile (· = ' ')).length

def skipGap (place : Place) : Place := place.skip (place.rest.takeWhile isGap).length

def skipLine (place : Place) : Place :=
  place.skip (place.rest.takeWhile fun character => !isBreak character).length

def skipComment (place : Place) : Place :=
  if place.head? = some '#' then place.skipLine else place

def isAtMarker (place : Place) (marker : String) : Bool :=
  marker.toList.isPrefixOf place.rest && endsToken (place.rest.drop 3)

def isAtSomeMarker (place : Place) : Bool := place.isAtMarker "---" || place.isAtMarker "..."

def toToken (crossed : Bool) : (characters : Nat) → Place → Bool × Place
  | 0, place => (crossed, place)
  | characters + 1, place =>
      let next := place.skipSpaces.skipComment
      if next.isAtBreak then toToken true characters next.step else (crossed, next)

def finishLine (place : Place) : Except Fault Place :=
  let next := place.skipSpaces.skipComment
  if next.rest.isEmpty then .ok next
  else if next.isAtBreak then .ok next.step
  else .error (.form .badHead)

end Place

/-- What the end of a line comes to inside a scalar, with the empty lines that follow: a space
if none follow, and otherwise the ends of these. A separator is kept in any case. -/
def foldBreaks (first : Char) (more : List Char) : List Char :=
  if breakChar first ≠ '\n' then first :: more
  else if more.isEmpty then [' ']
  else more

example : foldBreaks '\n' [] = [' '] ∧ foldBreaks '\n' ['\n'] = ['\n'] := by decide

end TableSchema.Data.Yaml
