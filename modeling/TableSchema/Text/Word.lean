import TableSchema.Text.Alphanumeric
import TableSchema.Text.Digit

/-! The characters of words and names. A word character is a letter, a numeral or the
underscore; a name starts with a word character that is no decimal digit and goes on with
word characters and dollar signs. -/

namespace TableSchema.Text

def isWord (character : Char) : Bool :=
  if character.val < 0x80 then character.isAlphanum || character == '_'
  else inRanges alphanumericRanges character

def isNameStart (character : Char) : Bool := isWord character && !isDigit character

def isNamePart (character : Char) : Bool := isWord character || character == '$'

/-- Whether there is a character and it is a word character: what stands on either side of a
place in a text decides whether a word ends there. -/
def isWordAt : Option Char → Bool
  | some character => isWord character
  | none => false

/-- A dollar sign continues a name but does not start one, and is no word character. -/
example : isNamePart '$' = true ∧ isNameStart '$' = false ∧ isWord '$' = false := by decide

/-- Letters of other scripts and numerals such as one half are word characters. -/
example : isNameStart 'é' = true ∧ isNameStart '½' = true := by decide

end TableSchema.Text
