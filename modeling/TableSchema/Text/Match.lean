import TableSchema.Text.Blank
import TableSchema.Text.Case
import TableSchema.Text.Word

/-! Matching words at a place in a text. A matcher takes the text from a place on and gives what
follows the match; a place is the character before it, if there is one, together with the text
from there on. Keywords are written in lower case and matched without regard to case. -/

namespace TableSchema.Text

def afterBlanks? : List Char → Option (List Char)
  | [] => none
  | character :: rest => if isBlank character then some (trimLeft rest) else none

def afterChar? (expected : Char) : List Char → Option (List Char)
  | [] => none
  | character :: rest => if character = expected then some rest else none

def afterKeyword? : (keyword : List Char) → List Char → Option (List Char)
  | [], text => some text
  | _ :: _, [] => none
  | letter :: keyword, character :: rest =>
      if fold character = letter then afterKeyword? keyword rest else none

def afterPhrase? : (phrase : List (List Char)) → List Char → Option (List Char)
  | [], text => some text
  | [keyword], text => afterKeyword? keyword text
  | keyword :: phrase, text =>
      afterKeyword? keyword text >>= afterBlanks? >>= afterPhrase? phrase

def digitsAt? (text : List Char) : Option (List Char × List Char) :=
  match text.takeWhile isDigit with
  | [] => none
  | digits => some (digits, text.dropWhile isDigit)

def wholeWordsAt (phrase : List (List Char)) (previous : Option Char) (text : List Char) : Bool :=
  !isWordAt previous && match afterPhrase? phrase text with
    | some rest => !isWordAt rest.head?
    | none => false

def phraseAt (phrase : List (List Char)) (_previous : Option Char) (text : List Char) : Bool :=
  (afterPhrase? phrase text).isSome

def findPlace? (here : Option Char → List Char → Bool) (previous : Option Char) :
    List Char → Option Nat
  | [] => none
  | character :: rest =>
      if here previous (character :: rest) then some 0
      else (findPlace? here (some character) rest).map (· + 1)

def occurs (here : Option Char → List Char → Bool) (text : List Char) : Bool :=
  (findPlace? here none text).isSome

example : occurs (wholeWordsAt ["not".toList, "null".toList]) "a Not  nULL".toList = true := by
  decide

/-- A keyword inside a longer word is no whole word. -/
example : occurs (wholeWordsAt ["not".toList]) "nothing".toList = false := by decide

end TableSchema.Text
