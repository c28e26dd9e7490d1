import TableSchema.Data.Double

/-! Data values: what a JSON text or a configuration file says. -/

namespace TableSchema

/-- A value without a schema of its own. The entries of an object stand in the order in which they
were written. -/
inductive Value where
  | null
  | bool (value : Bool)
  | int (value : Int)
  | float (value : Data.Double)
  | moment
  | text (value : String)
  /-- A text with code points that stand for no character: halves of pairs without the other
  half. -/
  | brokenText (codePoints : List Nat)
  | list (items : List Value)
  | object (entries : List (String × Value))
  deriving Repr

namespace Value

def isCharacter (codePoint : Nat) : Bool := codePoint < 0xD800 || 0xDFFF < codePoint

def ofCodePoints (codePoints : List Nat) : Value :=
  if codePoints.all isCharacter then .text (String.ofList (codePoints.map Char.ofNat))
  else .brokenText codePoints

/-- The value of the last entry with a key: later entries replace earlier ones. -/
def entry? (entries : List (String × Value)) (key : String) : Option Value :=
  (entries.reverse.find? (·.1 = key)).map (·.2)

def isVacant : Value → Bool
  | .null => true
  | .bool value => !value
  | .int value => value == 0
  | .float value => value.isZero
  | .moment => false
  | .text value => value.isEmpty
  | .brokenText _ => false
  | .list items => items.isEmpty
  | .object entries => entries.isEmpty

/-! ## Finite numbers -/

mutual

def isFinite : Value → Bool
  | .float value => value.isFinite
  | .list items => itemsAreFinite items
  | .object entries => entriesAreFinite entries
  | _ => true

def itemsAreFinite : List Value → Bool
  | [] => true
  | item :: rest => isFinite item && itemsAreFinite rest

def entriesAreFinite : List (String × Value) → Bool
  | [] => true
  | (_, value) :: rest => isFinite value && entriesAreFinite rest

end

example : isFinite (.list [.null, .object [("a", .float .notANumber)]]) = false := by decide

end Value

end TableSchema
