import TableSchema.Data.Yaml.Fault
import TableSchema.Text.Case

/-! Scalars of YAML 1.1. The form of a scalar tells whether it is null, a truth value, a number, a
point in time, or one of two signs of mappings; any other scalar is a text. -/

namespace TableSchema.Data.Yaml

open Text

inductive ScalarKind where
  | null
  | bool
  | int
  | float
  | moment
  /-- The key of entries that come from other mappings. -/
  | merge
  /-- The equals sign, which is a text as a key and no value otherwise. -/
  | equals
  | text
  deriving DecidableEq, Repr

/-! ## Digits -/

def isOctal (character : Char) : Bool := '0' ≤ character && character ≤ '7'

def isBinary (character : Char) : Bool := character == '0' || character == '1'

def isHex (character : Char) : Bool := (hexDigitValue? character).isSome

def isLoose (isOne : Char → Bool) (character : Char) : Bool := isOne character || character == '_'

def splitAt (separator : Char) : List Char → List (List Char)
  | [] => [[]]
  | character :: rest =>
      if character = separator then [] :: splitAt separator rest
      else match splitAt separator rest with
        | [] => [[character]]
        | piece :: pieces => (character :: piece) :: pieces

def isSixtieth : List Char → Bool
  | [digit] => isAsciiDigit digit
  | [tens, digit] => isAsciiDigit tens && tens ≤ '5' && isAsciiDigit digit
  | _ => false

def isWhole : List Char → Bool
  | first :: rest => isAsciiDigit first && rest.all (isLoose isAsciiDigit)
  | [] => false

def areSixtieths : List (List Char) → Bool
  | whole :: places => isWhole whole && !places.isEmpty && places.all isSixtieth
  | [] => false

def unsigned : List Char → List Char
  | '-' :: rest | '+' :: rest => rest
  | rest => rest

/-! ## Forms -/

def isUnsignedInteger : List Char → Bool
  | '0' :: 'b' :: rest => !rest.isEmpty && rest.all (isLoose isBinary)
  | '0' :: 'x' :: rest => !rest.isEmpty && rest.all (isLoose isHex)
  | '0' :: rest => rest.all (isLoose isOctal)
  | digits => isWhole digits || areSixtieths (splitAt ':' digits)

def isExponent : List Char → Bool
  | [] => true
  | letter :: sign :: digits =>
      (letter == 'e' || letter == 'E') && (sign == '-' || sign == '+') && !digits.isEmpty &&
        digits.all isAsciiDigit
  | _ => false

def isPointed (text : List Char) : Bool :=
  let whole := (unsigned text).takeWhile (· ≠ '.')
  match (unsigned text).dropWhile (· ≠ '.') with
  | [] => false
  | _ :: rest =>
      let fraction := rest.takeWhile (isLoose isAsciiDigit)
      let exponent := rest.dropWhile (isLoose isAsciiDigit)
      if whole.isEmpty then
        text.head? = some '.' && isWhole fraction && isExponent exponent
      else
        (isWhole whole && isExponent exponent) ||
          (areSixtieths (splitAt ':' whole) && exponent.isEmpty)

def isInfinity (text : List Char) : Bool :=
  String.ofList (unsigned text) ∈ [".inf", ".Inf", ".INF"]

def isNotANumber (text : List Char) : Bool := String.ofList text ∈ [".nan", ".NaN", ".NAN"]

def nullWords : List String := ["", "~", "null", "Null", "NULL"]

def boolWords : List String := [
  "yes", "Yes", "YES", "true", "True", "TRUE", "on", "On", "ON",
  "no", "No", "NO", "false", "False", "FALSE", "off", "Off", "OFF"]

def kindOf (text : List Char) : ScalarKind :=
  let word := String.ofList text
  if word ∈ nullWords then .null
  else if word ∈ boolWords then .bool
  else if word = "<<" then .merge
  else if word = "=" then .equals
  else if isUnsignedInteger (unsigned text) then .int
  else if isPointed text || isInfinity text || isNotANumber text then .float
  else if (readMoment text).isSome then .moment
  else .text

example : ["1_000", "0x1F", "1:20", "1.e+3", "-.inf", "2024-01-02", "off", "08"].map
    (kindOf ·.toList) = [.int, .int, .int, .float, .float, .moment, .bool, .text] := by
  decide +kernel

/-! ## Integers -/

def valueIn (base : Nat) (digits : List Char) : Except Fault Nat :=
  let values := digits.filterMap hexDigitValue?
  if digits.isEmpty || values.length != digits.length || !values.all (· < base) then
    .error (.value (.badDigits base (String.ofList digits)))
  else .ok (values.foldl (fun value digit => value * base + digit) 0)

def decimalIn (digits : List Char) : Except Fault Nat :=
  match readInteger (String.ofList digits) with
  | .ok value => .ok value.toNat
  | .error (.malformed text) => .error (.value (.badDigits 10 text))
  | .error (.tooLong digits) => .error (.value (.tooManyDigits digits))

def naturalValue : List Char → Except Fault Nat
  | [] => .error (.form .noValue)
  | ['0'] => .ok 0
  | '0' :: 'b' :: rest => valueIn 2 rest
  | '0' :: 'x' :: rest => valueIn 16 rest
  | '0' :: rest => valueIn 8 ('0' :: rest)
  | digits => do
      let places ← (splitAt ':' digits).mapM decimalIn
      .ok (places.foldl (fun value place => value * 60 + place) 0)

def integerValue (text : List Char) : Except Fault Int := do
  let digits := text.filter (· ≠ '_')
  let value ← naturalValue (unsigned digits)
  .ok (if digits.head? = some '-' then -Int.ofNat value else Int.ofNat value)

/-! ## Numbers in double precision -/

def exponentValue : List Char → Option Int
  | [] => some 0
  | 'e' :: rest =>
      let digits := unsigned rest
      if digits.isEmpty || !digits.all isAsciiDigit then none
      else some (if rest.head? = some '-' then -(asciiNumber digits : Int) else asciiNumber digits)
  | _ => none

def floatIn (text : List Char) : Except Fault Double :=
  let whole := text.takeWhile isAsciiDigit
  let rest := text.dropWhile isAsciiDigit
  let pointed := rest.head? = some '.'
  let fraction := if pointed then (rest.drop 1).takeWhile isAsciiDigit else []
  let exponent := if pointed then (rest.drop 1).dropWhile isAsciiDigit else rest
  match exponentValue exponent with
  | some exponent =>
      if whole.isEmpty && fraction.isEmpty then
        .error (.value (.notFloat (String.ofList text)))
      else .ok (.ofDecimal false (asciiNumber (whole ++ fraction)) (exponent - fraction.length))
  | none => .error (.value (.notFloat (String.ofList text)))

def sumOfSixtieths (sum : Double) (weight : Nat) : List Double → Double
  | [] => sum
  | place :: rest => sumOfSixtieths (sum + place * .ofInt weight) (weight * 60) rest

def magnitude (text : List Char) : Except Fault Double :=
  if text = ".inf".toList then .ok (.infinite false)
  else if text = ".nan".toList then .ok .notANumber
  else if ':' ∈ text then do
    let places ← (splitAt ':' text).mapM floatIn
    .ok (sumOfSixtieths (.ofInt 0) 1 places.reverse)
  else floatIn text

def floatValue (text : List Char) : Except Fault Double := do
  let digits := lower (text.filter (· ≠ '_'))
  let value ← magnitude (unsigned digits)
  .ok (if digits.head? = some '-' then value.negate else value)

/-! ## Values -/

def ScalarKind.value (kind : ScalarKind) (text : List Char) : Except Fault Value :=
  match kind with
  | .null => .ok .null
  | .bool =>
      let word := String.ofList (lower text)
      if word ∈ ["yes", "true", "on"] then .ok (.bool true)
      else if word ∈ ["no", "false", "off"] then .ok (.bool false)
      else .error (.form .noValue)
  | .int => (integerValue text).map .int
  | .float => (floatValue text).map .float
  | .moment =>
      match readMoment text with
      | none => .error (.form .noValue)
      | some point =>
          match point.fault? with
          | some fault => .error (.value (.moment fault))
          | none => .ok .moment
  | .merge | .equals => .error (.form .noValue)
  | .text => .ok (.text (String.ofList text))

example : (ScalarKind.int.value "1:20".toList, ScalarKind.int.value "0x_1f".toList)
    matches (.ok (.int 80), .ok (.int 31)) := by decide +kernel

/-- A base needs digits. -/
example : ScalarKind.int.value "0b_".toList matches .error (.value (.badDigits 2 "")) := by
  decide +kernel

end TableSchema.Data.Yaml
