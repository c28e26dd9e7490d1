import TableSchema.Data.Value
import TableSchema.Text.Quoted

/-! Writing values as JSON. The text is ASCII: every other character is written as one escape,
or two where it lies beyond U+FFFF. -/

namespace TableSchema.Data

open Text

/-! ## Strings -/

def unitEscape (unit : Nat) : List Char := '\\' :: 'u' :: hexDigits 4 unit

def codePointEscape (code : Nat) : List Char :=
  if code < 0x10000 then unitEscape code
  else
    unitEscape (0xD800 + (code - 0x10000) / 0x400) ++
      unitEscape (0xDC00 + (code - 0x10000) % 0x400)

def jsonChar (character : Char) : List Char :=
  let code := character.toNat
  if character = '"' ∨ character = '\\' then ['\\', character]
  else if character = '\n' then ['\\', 'n']
  else if character = '\r' then ['\\', 'r']
  else if character = '\t' then ['\\', 't']
  else if code = 8 then ['\\', 'b']
  else if code = 12 then ['\\', 'f']
  else if 0x20 ≤ code ∧ code < 0x7F then [character]
  else codePointEscape code

def jsonCodePoint (code : Nat) : List Char :=
  if Value.isCharacter code then jsonChar (Char.ofNat code) else codePointEscape code

def jsonString (text : List Char) : List Char := '"' :: text.flatMap jsonChar ++ ['"']

example : jsonString ['é', '"'] = "\"\\u00e9\\\"\"".toList := by decide

/-! ## Layout -/

inductive Layout where
  | oneLine
  | indented (spaces : Nat)
  deriving DecidableEq, Repr

namespace Layout

def ofSpaces : Option Int → Layout
  | none => .oneLine
  | some spaces => .indented spaces.toNat

def lineBreak (layout : Layout) (level : Nat) : List Char :=
  match layout with
  | .oneLine => []
  | .indented spaces => '\n' :: List.replicate (spaces * level) ' '

def separator (layout : Layout) (level : Nat) : List Char :=
  match layout with
  | .oneLine => [',', ' ']
  | .indented _ => ',' :: layout.lineBreak level

end Layout

/-! ## Values -/

mutual

def jsonValue (layout : Layout) (level : Nat) : Value → List Char
  | .null => "null".toList
  | .bool true => "true".toList
  | .bool false => "false".toList
  | .int value => (toString value).toList
  | .float value => value.text
  | .moment => "null".toList
  | .text value => jsonString value.toList
  | .brokenText codePoints => '"' :: codePoints.flatMap jsonCodePoint ++ ['"']
  | .list [] => "[]".toList
  | .list (item :: rest) =>
      '[' :: layout.lineBreak (level + 1) ++ jsonValue layout (level + 1) item ++
        jsonItems layout (level + 1) rest ++ layout.lineBreak level ++ [']']
  | .object [] => "\x7b\x7d".toList
  | .object ((key, value) :: rest) =>
      '\x7b' :: layout.lineBreak (level + 1) ++ jsonString key.toList ++ ':' :: ' ' ::
        jsonValue layout (level + 1) value ++
        jsonEntries layout (level + 1) rest ++ layout.lineBreak level ++ ['\x7d']

def jsonItems (layout : Layout) (level : Nat) : List Value → List Char
  | [] => []
  | item :: rest =>
      layout.separator level ++ jsonValue layout level item ++ jsonItems layout level rest

def jsonEntries (layout : Layout) (level : Nat) : List (String × Value) → List Char
  | [] => []
  | (key, value) :: rest =>
      layout.separator level ++ jsonString key.toList ++ ':' :: ' ' ::
        jsonValue layout level value ++ jsonEntries layout level rest

end

def toJson (layout : Layout) (value : Value) : String :=
  String.ofList (jsonValue layout 0 value)

example : toJson .oneLine (.list [.int 1, .object [("a", .null)]]) =
    "[1, \x7b\"a\": null\x7d]" := by decide +kernel

/-! ## Code points -/

def compactCodePoint (code : Nat) : List Nat :=
  if 0x20 ≤ code ∧ code ≠ 0x22 ∧ code ≠ 0x5C then [code]
  else (jsonCodePoint code).map Char.toNat

def compactString (codePoints : List Nat) : List Nat :=
  0x22 :: codePoints.flatMap compactCodePoint ++ [0x22]

def pointsOf (text : List Char) : List Nat := text.map Char.toNat

mutual

def compactJson : Value → List Nat
  | .text value => compactString (pointsOf value.toList)
  | .brokenText codePoints => compactString codePoints
  | .list items => '['.toNat :: compactItems items ++ [']'.toNat]
  | .object entries => '\x7b'.toNat :: compactEntries entries ++ ['\x7d'.toNat]
  | value => pointsOf (jsonValue .oneLine 0 value)

def compactItems : List Value → List Nat
  | [] => []
  | [item] => compactJson item
  | item :: rest => compactJson item ++ ','.toNat :: compactItems rest

def compactEntries : List (String × Value) → List Nat
  | [] => []
  | [(key, value)] => compactString (pointsOf key.toList) ++ ':'.toNat :: compactJson value
  | (key, value) :: rest =>
      compactString (pointsOf key.toList) ++ ':'.toNat :: compactJson value ++
        ','.toNat :: compactEntries rest

end

def firstBroken? (codePoints : List Nat) : Option (Nat × List Nat) :=
  (codePoints.findIdx? (!Value.isCharacter ·)).map fun place =>
    (place, (codePoints.drop place).takeWhile (!Value.isCharacter ·))

example : firstBroken? (compactJson (.list [.null, .brokenText [0x61, 0xD800]])) =
    some (8, [0xD800]) := by decide +kernel

end TableSchema.Data
