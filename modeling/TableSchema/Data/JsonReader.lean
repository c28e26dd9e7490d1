import TableSchema.Data.Value
import TableSchema.Text.Integer

/-! Reading JSON. A text that is no JSON is refused with the first thing that is wrong and the
place where it is met. A text may also be refused because reading it would take too much. -/

namespace TableSchema.Data

/-! ## Faults -/

inductive JsonFault where
  | expectedValue
  | expectedName
  | expectedColon
  | expectedComma
  | extraData
  | unterminatedString
  | controlCharacter
  | badEscape
  | badUnicodeEscape
  | tooDeep
  | tooManyDigits
  deriving DecidableEq, Repr

/-- Whether a text is refused for its size, although it may be JSON. -/
def JsonFault.isLimit : JsonFault → Bool
  | .tooDeep | .tooManyDigits => true
  | _ => false

def JsonFault.message : JsonFault → String
  | .expectedValue => "Expecting value"
  | .expectedName => "Expecting property name enclosed in double quotes"
  | .expectedColon => "Expecting ':' delimiter"
  | .expectedComma => "Expecting ',' delimiter"
  | .extraData => "Extra data"
  | .unterminatedString => "Unterminated string starting at"
  | .controlCharacter => "Invalid control character at"
  | .badEscape => "Invalid \\escape"
  | .badUnicodeEscape => "Invalid \\uXXXX escape"
  | .tooDeep => "Too many nested values"
  | .tooManyDigits => "Too many digits"

structure Cursor where
  place : Nat
  rest : List Char

namespace Cursor

def skip (cursor : Cursor) (count : Nat) : Cursor :=
  ⟨cursor.place + count, cursor.rest.drop count⟩

def isJsonBlank (character : Char) : Bool :=
  character == ' ' || character == '\t' || character == '\n' || character == '\r'

def skipBlanks (cursor : Cursor) : Cursor :=
  cursor.skip (cursor.rest.takeWhile isJsonBlank).length

end Cursor

abbrev JsonRead := Except (JsonFault × Nat)

/-! ## Strings -/

def hexDigitValue? (character : Char) : Option Nat :=
  if '0' ≤ character ∧ character ≤ '9' then some (character.toNat - '0'.toNat)
  else if 'a' ≤ character ∧ character ≤ 'f' then some (character.toNat - 'a'.toNat + 10)
  else if 'A' ≤ character ∧ character ≤ 'F' then some (character.toNat - 'A'.toNat + 10)
  else none

def hexUnit? (digits : List Char) : Option Nat :=
  if digits.length = 4 then
    digits.foldlM (fun value digit => (hexDigitValue? digit).map (value * 16 + ·)) 0
  else none

def shortEscape? (character : Char) : Option Char :=
  if character = '"' ∨ character = '\\' ∨ character = '/' then some character
  else if character = 'b' then some (Char.ofNat 8)
  else if character = 'f' then some (Char.ofNat 12)
  else if character = 'n' then some '\n'
  else if character = 'r' then some '\r'
  else if character = 't' then some '\t'
  else none

def lowUnit? : List Char → Option Nat
  | '\\' :: 'u' :: rest =>
      if rest.length ≤ 4 then none
      else (hexUnit? (rest.take 4)).bind fun unit =>
        if 0xDC00 ≤ unit ∧ unit ≤ 0xDFFF then some unit else none
  | _ => none

/-- Read the code points of a string up to its closing quote. Half of a pair alone stands for no
character. The string's opening quote is at place `opening`; the first `skip` characters belong
to an escape that has been read. -/
def jsonStringFrom (opening place : Nat) :
    (skip : Nat) → List Char → JsonRead (List Nat × Cursor)
  | _, [] => .error (.unterminatedString, opening)
  | skip + 1, _ :: rest => jsonStringFrom opening (place + 1) skip rest
  | 0, character :: rest =>
      if character = '"' then .ok ([], ⟨place + 1, rest⟩)
      else if character = '\\' then
        match rest with
        | [] => .error (.unterminatedString, opening)
        | 'u' :: digits =>
            if digits.length ≤ 4 then .error (.badUnicodeEscape, place + 1)
            else match hexUnit? (digits.take 4) with
              | none => .error (.badUnicodeEscape, place + 1)
              | some unit =>
                  let isHigh := 0xD800 ≤ unit ∧ unit ≤ 0xDBFF
                  match if isHigh then lowUnit? (digits.drop 4) else none with
                  | some low =>
                      let code := 0x10000 + (unit - 0xD800) * 0x400 + (low - 0xDC00)
                      (fun (read, after) => (code :: read, after)) <$>
                        jsonStringFrom opening (place + 1) 11 rest
                  | none =>
                      (fun (read, after) => (unit :: read, after)) <$>
                        jsonStringFrom opening (place + 1) 5 rest
        | letter :: _ =>
            match shortEscape? letter with
            | none => .error (.badEscape, place)
            | some meant =>
                (fun (read, after) => (meant.toNat :: read, after)) <$>
                  jsonStringFrom opening (place + 1) 1 rest
      else if character.toNat < 0x20 then .error (.controlCharacter, place)
      else
        (fun (read, after) => (character.toNat :: read, after)) <$>
          jsonStringFrom opening (place + 1) 0 rest

def readJsonString (cursor : Cursor) : JsonRead (List Nat × Cursor) :=
  jsonStringFrom (cursor.place - 1) cursor.place 0 cursor.rest

/-- The character of a code point, or the replacement character if it stands for none. -/
def keyChar (codePoint : Nat) : Char :=
  if Value.isCharacter codePoint then Char.ofNat codePoint else Char.ofNat 0xFFFD

/-! ## Numbers -/

def isAsciiDigit (character : Char) : Bool := '0' ≤ character && character ≤ '9'

def asciiNumber (digits : List Char) : Nat :=
  digits.foldl (fun value digit => value * 10 + (digit.toNat - '0'.toNat)) 0

/-- The digits before the point: a zero stands alone. -/
def wholeDigits (text : List Char) : List Char :=
  match text with
  | '0' :: _ => ['0']
  | _ => text.takeWhile isAsciiDigit

/-- The digits of a fraction, with the point before them; none if no digit follows a point. -/
def fractionDigits (text : List Char) : List Char :=
  match text with
  | '.' :: rest => rest.takeWhile isAsciiDigit
  | _ => []

def exponentPart (text : List Char) : Nat × Int :=
  let digitsAfter (read : Nat) (rest : List Char) (sign : Int) : Nat × Int :=
    let digits := rest.takeWhile isAsciiDigit
    if digits.isEmpty then (0, 0) else (read + digits.length, sign * asciiNumber digits)
  match text with
  | letter :: rest =>
      if letter = 'e' ∨ letter = 'E' then
        match rest with
        | '-' :: rest => digitsAfter 2 rest (-1)
        | '+' :: rest => digitsAfter 2 rest 1
        | rest => digitsAfter 1 rest 1
      else (0, 0)
  | [] => (0, 0)

def readJsonNumber (cursor : Cursor) : JsonRead (Value × Cursor) :=
  let negative := cursor.rest.head? = some '-'
  let start := if negative then cursor.skip 1 else cursor
  let whole := wholeDigits start.rest
  if whole.isEmpty then .error (.expectedValue, cursor.place)
  else
    let afterWhole := start.skip whole.length
    let fraction := fractionDigits afterWhole.rest
    let afterFraction :=
      if fraction.isEmpty then afterWhole else afterWhole.skip (fraction.length + 1)
    let (length, exponent) := exponentPart afterFraction.rest
    let digits := asciiNumber (whole ++ fraction)
    if fraction.isEmpty && length = 0 then
      if Text.digitLimit < whole.length then .error (.tooManyDigits, cursor.place)
      else .ok (.int (if negative then -Int.ofNat digits else Int.ofNat digits), afterFraction)
    else
      .ok (.float (.ofDecimal negative digits (exponent - fraction.length)),
        afterFraction.skip length)

/-! ## Values -/

def jsonWords : List (String × Value) := [
  ("null", .null), ("true", .bool true), ("false", .bool false),
  ("NaN", .float .notANumber), ("Infinity", .float (.infinite false)),
  ("-Infinity", .float (.infinite true))]

def nestingLimit : Nat := 955

mutual

/-- Read the value that starts at a place. Lists and objects in it may be nested `room` deep; the
bound `steps` is greater than the number of values and entries that are left. -/
def readJsonValue (steps room : Nat) (cursor : Cursor) : JsonRead (Value × Cursor) :=
  match steps with
  | 0 => .error (.tooDeep, cursor.place)
  | steps + 1 =>
      match cursor.rest, room with
      | '"' :: _, _ =>
          (fun (read, after) => (Value.ofCodePoints read, after)) <$> readJsonString (cursor.skip 1)
      | '[' :: _, 0 | '\x7b' :: _, 0 => .error (.tooDeep, cursor.place)
      | '[' :: _, room + 1 =>
          let inside := (cursor.skip 1).skipBlanks
          if inside.rest.head? = some ']' then .ok (.list [], inside.skip 1)
          else
            (fun (read, after) => (Value.list read, after)) <$> readJsonItems steps room inside
      | '\x7b' :: _, room + 1 =>
          let inside := (cursor.skip 1).skipBlanks
          if inside.rest.head? = some '\x7d' then .ok (.object [], inside.skip 1)
          else
            (fun (read, after) => (Value.object read, after)) <$>
              readJsonEntries steps room inside
      | rest, _ =>
          match jsonWords.find? fun word => word.1.toList.isPrefixOf rest with
          | some (word, value) => .ok (value, cursor.skip word.length)
          | none => readJsonNumber cursor

def readJsonItems (steps room : Nat) (cursor : Cursor) : JsonRead (List Value × Cursor) :=
  match steps with
  | 0 => .error (.tooDeep, cursor.place)
  | steps + 1 => do
      let (item, after) ← readJsonValue steps room cursor
      let next := after.skipBlanks
      match next.rest with
      | ']' :: _ => .ok ([item], next.skip 1)
      | ',' :: _ =>
          let (items, after) ← readJsonItems steps room (next.skip 1).skipBlanks
          .ok (item :: items, after)
      | _ => .error (.expectedComma, next.place)

def readJsonEntries (steps room : Nat) (cursor : Cursor) :
    JsonRead (List (String × Value) × Cursor) :=
  match steps with
  | 0 => .error (.tooDeep, cursor.place)
  | steps + 1 => do
      if cursor.rest.head? ≠ some '"' then .error (.expectedName, cursor.place)
      else
        let (name, after) ← readJsonString (cursor.skip 1)
        let key := String.ofList (name.map keyChar)
        let colon := after.skipBlanks
        if colon.rest.head? ≠ some ':' then .error (.expectedColon, colon.place)
        else
          let (value, after) ← readJsonValue steps room (colon.skip 1).skipBlanks
          let next := after.skipBlanks
          match next.rest with
          | '\x7d' :: _ => .ok ([(key, value)], next.skip 1)
          | ',' :: _ =>
              let (entries, after) ← readJsonEntries steps room (next.skip 1).skipBlanks
              .ok ((key, value) :: entries, after)
          | _ => .error (.expectedComma, next.place)

end

/-- The value that a JSON text writes. Every step into a value or on to the next item reads at
least one character, so the length of the text bounds the steps that are needed. -/
def ofJson (text : List Char) : Except (JsonFault × Nat) Value := do
  let start := Cursor.skipBlanks ⟨0, text⟩
  let (value, after) ← readJsonValue (2 * text.length + 2) nestingLimit start
  let finish := after.skipBlanks
  if finish.rest.isEmpty then .ok value else .error (.extraData, finish.place)

example : (match ofJson "[1, -2.50]".toList with
    | .ok (.list [.int 1, .float value]) => value == .ofDecimal true 25 (-1)
    | _ => false) = true := by decide +kernel

/-- The place of a fault counts the characters before it. -/
example : (match ofJson "[1 2]".toList with
    | .error (.expectedComma, 3) => true
    | _ => false) = true := by decide +kernel

end TableSchema.Data
