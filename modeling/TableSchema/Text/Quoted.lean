import TableSchema.Text.Printable

/-! The quoted display form of a text, used where a message shows a value: the text between
quotes, with everything that cannot be printed written as an escape. -/

namespace TableSchema.Text

def apostrophe : Char := Char.ofNat 0x27

def hexDigits : (width : Nat) → Nat → List Char
  | 0, _ => []
  | width + 1, number => hexDigits width (number / 16) ++ [Nat.digitChar (number % 16)]

example : hexDigits 4 0x2F = ['0', '0', '2', 'f'] := by decide

def hexEscape (character : Char) : List Char :=
  let code := character.toNat
  if code < 0x100 then '\\' :: 'x' :: hexDigits 2 code
  else if code < 0x10000 then '\\' :: 'u' :: hexDigits 4 code
  else '\\' :: 'U' :: hexDigits 8 code

def displayChar (quote character : Char) : List Char :=
  if character = quote ∨ character = '\\' then ['\\', character]
  else if character = '\t' then ['\\', 't']
  else if character = '\n' then ['\\', 'n']
  else if character = '\r' then ['\\', 'r']
  else if isPrintable character then [character]
  else hexEscape character

/-- The quote of a display form: an apostrophe, unless the text holds apostrophes and no
double quote. -/
def displayQuote (text : List Char) : Char :=
  if text.contains apostrophe && !text.contains '"' then '"' else apostrophe

def display (text : String) : String :=
  let quote := displayQuote text.toList
  String.ofList (quote :: text.toList.flatMap (displayChar quote) ++ [quote])

example : display "a\tb" = "'a\\tb'" := by decide

/-- Apostrophes alone change the quotes. -/
example : display "it's" = "\"it's\"" := by decide

end TableSchema.Text
