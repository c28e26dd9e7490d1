import TableSchema.Document
import TableSchema.Sql.Clause
import TableSchema.Sql.Identifier
import TableSchema.Sql.TypeLabel

/-! Columns. A clause of a table body is a column if it has a name and a type; otherwise it is
a constraint of the table or nothing that is recognised. -/

namespace TableSchema.Sql

open Text

inductive Refusal where
  | constraint
  | emptyClause
  /-- The clause does not start with a name and a blank. -/
  | noNameAndType
  /-- No type follows the name, or the name is empty. -/
  | noType
  deriving DecidableEq, Repr

def Refusal.message : Refusal → String
  | .constraint => "table-level constraint"
  | .emptyClause => "empty clause"
  | .noNameAndType => "no column name and type"
  | .noType => "no column type"

/-! ## Table constraints -/

def constraintPhrases : List (List (List Char)) := [
  ["primary".toList, "key".toList], ["foreign".toList, "key".toList], ["unique".toList],
  ["check".toList], ["constraint".toList], ["like".toList]]

def afterExclude (rest : List Char) : Bool :=
  (trimLeft rest).head? = some '(' ||
    match afterBlanks? rest >>= afterKeyword? "using".toList with
    | some rest => !isWordAt rest.head?
    | none => false

def startsConstraint (masked : List Char) : Bool :=
  (constraintPhrases.any fun phrase => wholeWordsAt phrase none masked) ||
    ((afterKeyword? "exclude".toList masked).map afterExclude).getD false

def isTableConstraint (clause : List Char) : Bool := startsConstraint (trimLeft (mask clause))

/-! ## Names and types -/

def columnName? : List Char → Option (List Char × List Char)
  | [] => none
  | '"' :: rest => do
      let (inside, rest) ← quoteEnd? '"' false rest
      some ('"' :: inside, ← afterBlanks? rest)
  | character :: rest =>
      if isNameStart character then do
        let rest' ← afterBlanks? (rest.dropWhile isNamePart)
        some (character :: rest.takeWhile isNamePart, rest')
      else none

/-- The words that end a type because they start a constraint of the column. -/
def typeEnds : List (List Char) := [
  "not".toList, "null".toList, "default".toList, "primary".toList, "unique".toList,
  "check".toList, "references".toList, "constraint".toList, "generated".toList,
  "collate".toList, "deferrable".toList, "initially".toList]

def typeEndsAt (previous : Option Char) (text : List Char) : Bool :=
  typeEnds.any fun keyword => wholeWordsAt [keyword] previous text

/-- Whether a text may be a type: it starts like a name or with a double quote. -/
def startsType : List Char → Bool
  | [] => false
  | character :: _ => isNameStart character || character == '"'

/-! ## Column constraints -/

/-- Whether the masked text of a column forbids null: it says NOT NULL, and no DEFAULT stands
before the first place that does. -/
def forbidsNull (masked : List Char) : Bool :=
  match findPlace? (wholeWordsAt ["not".toList, "null".toList]) none masked with
  | none => false
  | some place => !occurs (wholeWordsAt ["default".toList]) (masked.take place)

def saysPrimaryKey (masked : List Char) : Bool :=
  occurs (wholeWordsAt ["primary".toList, "key".toList]) masked

/-! ## Classification -/

/-- A clause as classification sees it: its code up to the first line comment, trimmed, both
masked and with its literals, and what that comment says, if it says anything. -/
structure ClauseView where
  masked : List Char
  plain : List Char
  comment : Option (List Char)
  deriving DecidableEq, Repr

def ClauseView.ofClause (clause : List Char) : ClauseView :=
  let segments := segments clause
  let code := segments.takeWhile (!·.isLineComment)
  let masked := code.flatMap Segment.masked
  let blanks := blanksAtStart masked
  let masked := trim masked
  { masked
    plain := ((code.flatMap Segment.stripped).drop blanks).take masked.length
    comment := (segments.find? (·.isLineComment)).bind fun comment =>
      let text := commentText comment.text
      if text.isEmpty then none else some text }

def primaryKeyDescription : String := "Primary key"

def ClauseView.classify (view : ClauseView) : Except Refusal Field :=
  if view.masked.isEmpty then .error .emptyClause
  else if startsConstraint view.masked then .error .constraint
  else match columnName? view.plain with
    | none => .error .noNameAndType
    | some (written, rest) =>
        let typeStart := view.plain.length - rest.length
        let name := unquote written
        let typeLength := (findPlace? typeEndsAt view.masked[typeStart - 1]?
          (view.masked.drop typeStart)).getD rest.length
        let rawType := trim (rest.take typeLength)
        if name.isEmpty || !startsType rawType then .error .noType
        else
          let isKey := name = ['i', 'd'] || saysPrimaryKey view.masked
          .ok {
            name := String.ofList name
            typeLabel := String.ofList (typeLabel rawType)
            required := isKey || forbidsNull view.masked
            description := (view.comment.map String.ofList).or
              (if isKey then some primaryKeyDescription else none) }

def classify (clause : List Char) : Except Refusal Field := (ClauseView.ofClause clause).classify

example : (classify "a varchar(3) NOT NULL -- name".toList).toOption =
    some ⟨"a", "VARCHAR(3)", true, some "name"⟩ := by decide +kernel

end TableSchema.Sql
