import TableSchema.Text.Match

/-! Labels of column types. A raw type is shown by a label: well-known types have one label for
all their spellings, and any other type is shown in upper case without its parameters. -/

namespace TableSchema.Sql

open Text

/-! ## Well-known types -/

def numberInParens? (text : List Char) : Option (List Char × List Char) := do
  let (digits, rest) ← digitsAt? (trimLeft (← afterChar? '(' (trimLeft text)))
  some (digits, ← afterChar? ')' (trimLeft rest))

def sizedVarcharAt? (text : List Char) : Option (List Char) := do
  let rest ← (afterPhrase? ["character".toList, "varying".toList] text).or
    (afterKeyword? "varchar".toList text)
  (numberInParens? rest).map (·.1)

def varcharLength? : List Char → Option (List Char)
  | [] => none
  | character :: rest => (sizedVarcharAt? (character :: rest)).or (varcharLength? rest)

def afterBrackets? (text : List Char) : Option (List Char) := do
  let inside ← afterChar? '[' text
  afterChar? ']' (trimLeft ((trimLeft inside).dropWhile isDigit))

def arrayAt (previous : Option Char) (text : List Char) : Bool :=
  (afterBrackets? text).isSome || wholeWordsAt ["array".toList] previous text

def afterZonedTimestamp? (text : List Char) : Option (List Char) := do
  let rest ← afterKeyword? "timestamp".toList text
  let afterPrecision := match numberInParens? rest with
    | some (_, after) => after
    | none => rest
  afterBlanks? afterPrecision >>= afterPhrase? ["with".toList, "time".toList, "zone".toList]

def zonedTimestampAt (_previous : Option Char) (text : List Char) : Bool :=
  (afterZonedTimestamp? text).isSome || (afterKeyword? "timestamptz".toList text).isSome

/-- Well-known types and their labels. The first one that stands anywhere in a raw type gives
the label. -/
def wellKnown : List ((Option Char → List Char → Bool) × String) := [
  (phraseAt ["character".toList, "varying".toList], "VARCHAR"),
  (arrayAt, "ARRAY"),
  (phraseAt ["jsonb".toList], "JSONB"),
  (zonedTimestampAt, "TIMESTAMP WITH TIME ZONE"),
  (phraseAt ["timestamp".toList], "TIMESTAMP"),
  (phraseAt ["bigint".toList], "BIGINT"),
  (phraseAt ["boolean".toList], "BOOLEAN"),
  (phraseAt ["uuid".toList], "UUID"),
  (phraseAt ["numeric".toList], "NUMERIC"),
  (phraseAt ["text".toList], "TEXT")]

/-! ## Other types -/

/-- A text with every parameter list, from an opening parenthesis to the next closing one,
replaced by a blank. The first `skip` characters belong to a list that has been replaced. -/
def withoutParameters : (skip : Nat) → List Char → List Char
  | _, [] => []
  | skip + 1, _ :: rest => withoutParameters skip rest
  | 0, character :: rest =>
      if character = '(' ∧ ')' ∈ rest then
        ' ' :: withoutParameters ((rest.takeWhile (· ≠ ')')).length + 1) rest
      else character :: withoutParameters 0 rest

def typeLabel (rawType : List Char) : List Char :=
  let rawType := collapse rawType
  match varcharLength? rawType with
  | some digits => "VARCHAR(".toList ++ digits ++ [')']
  | none =>
      match wellKnown.find? fun (here, _) => occurs here rawType with
      | some (_, label) => label.toList
      | none => upper (collapse (withoutParameters 0 rawType))

example : typeLabel "character  varying ( 20 )".toList = "VARCHAR(20)".toList := by decide

example : typeLabel "timestamp(3) with time zone".toList = "TIMESTAMP WITH TIME ZONE".toList := by
  decide

/-- Parameters of other types are dropped. -/
example : typeLabel "decimal(10, 2)".toList = "DECIMAL".toList := by decide +kernel

end TableSchema.Sql
