/-! Blank characters, and the words that they separate. Blanks are the white space of Unicode
together with the four information separators U+001C to U+001F. -/

namespace TableSchema.Text

def isSpace (character : Char) : Bool :=
  let code := character.toNat
  (0x09 ≤ code && code ≤ 0x0D) || code == 0x20 || code == 0x85 || code == 0xA0 ||
    code == 0x1680 || (0x2000 ≤ code && code ≤ 0x200A) || code == 0x2028 || code == 0x2029 ||
    code == 0x202F || code == 0x205F || code == 0x3000

/-- White space and the information separators. Zero-width spaces and the byte-order mark are
not blank. -/
def isBlank (character : Char) : Bool :=
  isSpace character || (0x1C ≤ character.toNat && character.toNat ≤ 0x1F)

/-! ## Trimming -/

def trimLeft (text : List Char) : List Char := text.dropWhile isBlank

def trimRight (text : List Char) : List Char := (text.reverse.dropWhile isBlank).reverse

def trim (text : List Char) : List Char := trimRight (trimLeft text)

/-- Only the blanks inside are kept. -/
example : trim " a b ".toList = "a b".toList := by decide

def blanksAtStart (text : List Char) : Nat := (text.takeWhile isBlank).length

/-! ## Words -/

def wordsFrom (word : List Char) : List Char → List (List Char)
  | [] => if word.isEmpty then [] else [word]
  | character :: rest =>
      if isBlank character then
        if word.isEmpty then wordsFrom [] rest else word :: wordsFrom [] rest
      else wordsFrom (word ++ [character]) rest

def words (text : List Char) : List (List Char) := wordsFrom [] text

def joinWords : List (List Char) → List Char
  | [] => []
  | [word] => word
  | word :: rest => word ++ ' ' :: joinWords rest

def collapse (text : List Char) : List Char := joinWords (words text)

example : collapse "  a \t b".toList = "a b".toList := by decide

end TableSchema.Text
