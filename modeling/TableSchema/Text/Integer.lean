import TableSchema.Text.Blank
import TableSchema.Text.Digit
import TableSchema.Text.Quoted

/-! Texts of whole numbers written in decimal: white space around the number is ignored, a sign may
come first, and single underscores may stand between digits. There is a limit to the number of
digits. -/

namespace TableSchema.Text

def digitLimit : Nat := 4300

inductive IntegerFault where
  | malformed (text : String)
  | tooLong (digits : Nat)
  deriving DecidableEq, Repr

def tooLongMessage (digits : Nat) : String :=
  s!"Exceeds the limit ({digitLimit} digits) for integer string conversion: value has {digits} " ++
    "digits; use sys.set_int_max_str_digits() to increase the limit"

def malformedMessage (base : Nat) (text : String) : String :=
  s!"invalid literal for int() with base {base}: " ++
    String.ofList ((display text).toList.take 200)

def IntegerFault.message : IntegerFault → String
  | .malformed text => malformedMessage 10 text
  | .tooLong digits => tooLongMessage digits

def underscoresSeparate : List Char → Bool
  | [] => false
  | [character] => character != '_'
  | character :: '_' :: rest => character != '_' && underscoresSeparate rest
  | character :: rest => character != '_' && underscoresSeparate rest

def decimalValue (digits : List Char) : Nat :=
  (digits.filterMap digitValue?).foldl (fun value digit => value * 10 + digit) 0

/-- The whole number that a text writes, if it writes one. The digits are counted before it is
looked at what follows them. -/
def readInteger (text : String) : Except IntegerFault Int :=
  let trimmed := text.toList.dropWhile isSpace
  let unsigned := match trimmed with
    | '-' :: rest | '+' :: rest => rest
    | rest => rest
  let run := unsigned.takeWhile fun character => isDigit character || character == '_'
  let digits := run.countP isDigit
  if !underscoresSeparate run then .error (.malformed text)
  else if digitLimit < digits then .error (.tooLong digits)
  else if !(unsigned.drop run.length).all isSpace then .error (.malformed text)
  else
    let value := decimalValue run
    .ok (if trimmed.head? = some '-' then -Int.ofNat value else Int.ofNat value)

example : (readInteger " -1_0 ").toOption = some (-10) := by decide +kernel

/-- Underscores stand between two digits only. -/
example : (readInteger "1__0").toOption = none ∧ (readInteger "1_").toOption = none := by
  decide +kernel

end TableSchema.Text
