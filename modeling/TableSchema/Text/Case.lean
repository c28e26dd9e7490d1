import TableSchema.Text.CaseTable

/-! Letter case. Upper and lower case are the full mappings, under which a character may become
several; words are compared without regard to case by folding each character to the ASCII
letter that it stands for. -/

namespace TableSchema.Text

def CaseRun.otherCase? (run : CaseRun) (character : Char) : Option Char :=
  if run.range.contains character && (character.toNat - run.range.first) % run.stride == 0 then
    some (Char.ofNat (Int.ofNat character.toNat + run.distance).toNat)
  else none

/-! ## Upper case -/

def upperChar (character : Char) : List Char :=
  if character.val < 0x80 then [character.toUpper]
  else match upperExpansions.lookup character.toNat with
    | some codes => codes.map Char.ofNat
    | none => [(upperRuns.findSome? (·.otherCase? character)).getD character]

def upper (text : List Char) : List Char := text.flatMap upperChar

/-- The sharp s becomes two letters. -/
example : upper ['ß', 'a'] = ['S', 'S', 'A'] := by decide

/-! ## Lower case -/

def lowerChar (character : Char) : List Char :=
  if character.val < 0x80 then [character.toLower]
  else if character = 'İ' then ['i', Char.ofNat 0x307]
  else [(lowerRuns.findSome? (·.otherCase? character)).getD character]

/-- Whether a character has case, for the test that decides how a sigma is written. -/
def isCased (character : Char) : Bool :=
  if character.val < 0x80 then character.isAlpha else inRanges casedRanges character

def casedNext (text : List Char) : Bool :=
  match text.dropWhile (inRanges caseIgnorableRanges) with
  | [] => false
  | character :: _ => isCased character

/-- A text in lower case, where `before` is the text already read, backwards. A capital sigma
that ends a word becomes a final sigma. -/
def lowerAfter (before : List Char) : List Char → List Char
  | [] => []
  | character :: rest =>
      let form :=
        if character = 'Σ' then
          if casedNext before && !casedNext rest then ['ς'] else ['σ']
        else lowerChar character
      form ++ lowerAfter (character :: before) rest

def lower (text : List Char) : List Char := lowerAfter [] text

/-- The last sigma of a word takes its final form. -/
example : lower ['Α', 'Σ'] = ['α', 'ς'] ∧ lower ['Σ', 'Α'] = ['σ', 'α'] := by decide +kernel

/-! ## Comparing without regard to case -/

/-- The lower-case ASCII letter that a character stands for when case is ignored; other
characters stand for themselves. Besides the ASCII letters these are the long s, the dotless
and the dotted i, and the Kelvin sign. -/
def fold (character : Char) : Char :=
  if character = 'ſ' then 's'
  else if character = 'ı' ∨ character = 'İ' then 'i'
  else if character = Char.ofNat 0x212A then 'k'
  else character.toLower

example : ['K', 'ſ', 'İ'].map fold = ['k', 's', 'i'] := by decide

end TableSchema.Text
