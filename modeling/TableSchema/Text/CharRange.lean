/-! Sets of characters as tables of code-point ranges. Properties that a standard fixes for
every character are kept as such tables; membership is a search through the ranges. -/

namespace TableSchema.Text

structure CharRange where
  first : Nat
  last : Nat
  deriving Repr, DecidableEq

namespace CharRange

def contains (range : CharRange) (character : Char) : Bool :=
  range.first ≤ character.toNat && character.toNat ≤ range.last

/-- The lower-case ASCII letters. -/
example : (CharRange.mk 0x61 0x7A).contains 'q' = true := by decide

end CharRange

def inRanges (ranges : List CharRange) (character : Char) : Bool :=
  ranges.any (·.contains character)

def rangeOf? (ranges : List CharRange) (character : Char) : Option CharRange :=
  ranges.find? (·.contains character)

end TableSchema.Text
