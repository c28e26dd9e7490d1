/-! Numbers in double precision. A finite one is a whole multiple of the smallest positive one, of
which 2 ^ 1074 make up one; at most 53 binary digits of the multiple are significant. Results
that have more digits are rounded to the nearest number, and to the even one of two that are
equally near. -/

namespace TableSchema.Data

/-- A number in double precision. Zero has a sign, too. -/
inductive Double where
  | finite (negative : Bool) (units : Nat)
  | infinite (negative : Bool)
  | notANumber
  deriving DecidableEq, Repr

namespace Double

/-! ## Rounding -/

/-- The natural number nearest to a ratio, and the even one of two that are equally near. -/
def nearest (numerator denominator : Nat) : Nat :=
  let quotient := numerator / denominator
  let twice := 2 * (numerator % denominator)
  if denominator < twice ∨ (twice = denominator ∧ quotient % 2 = 1) then quotient + 1 else quotient

example : (nearest 5 2, nearest 7 2, nearest 8 3) = (2, 4, 3) := by decide

def unitsPerOne : Nat := Nat.shiftLeft 1 1074

def overflow : Nat := Nat.shiftLeft 1 2098

def ofUnits (negative : Bool) (numerator denominator : Nat) : Double :=
  let dropped := (numerator / denominator).log2 - 52
  let units := Nat.shiftLeft (nearest numerator (Nat.shiftLeft denominator dropped)) dropped
  if units < overflow then .finite negative units else .infinite negative

/-- The number that is nearest to `digits` with the point moved by `exponent` places to the
right. Exponents that lead beyond all finite numbers, or below half a unit, are not computed. -/
def ofDecimal (negative : Bool) (digits : Nat) (exponent : Int) : Double :=
  if digits = 0 then .finite negative 0
  else if 400 < exponent then .infinite negative
  else if exponent + (digits.log2 / 3 : Nat) < -400 then .finite negative 0
  else ofUnits negative (digits * Nat.pow 10 exponent.toNat * unitsPerOne)
    (Nat.pow 10 (-exponent).toNat)

def ofInt (value : Int) : Double := ofDecimal (value < 0) value.natAbs 0

/-! ## What a number is -/

def isFinite : Double → Bool
  | .finite .. => true
  | _ => false

def isZero : Double → Bool
  | .finite _ units => units == 0
  | _ => false

def integer? : Double → Option Int
  | .finite negative units =>
      if units % unitsPerOne ≠ 0 then none
      else
        let size := units / unitsPerOne
        some (if negative then -Int.ofNat size else Int.ofNat size)
  | _ => none

/-- A fraction that is too small to tell is lost. -/
example : (ofDecimal false 8000000000000000001 (-17)).integer? = some 80 := by decide +kernel

/-! ## Arithmetic -/

def negate : Double → Double
  | .finite negative units => .finite (!negative) units
  | .infinite negative => .infinite (!negative)
  | .notANumber => .notANumber

def add : Double → Double → Double
  | .finite negative units, .finite other more =>
      let signed (negative : Bool) (units : Nat) : Int := if negative then -units else units
      let sum := signed negative units + signed other more
      if sum = 0 then .finite (negative && other) 0 else ofUnits (sum < 0) sum.natAbs 1
  | .infinite negative, .infinite other =>
      if negative = other then .infinite negative else .notANumber
  | .infinite negative, .finite .. | .finite .., .infinite negative => .infinite negative
  | .notANumber, _ | _, .notANumber => .notANumber

def multiply : Double → Double → Double
  | .finite negative units, .finite other more =>
      ofUnits (negative != other) (units * more) unitsPerOne
  | .infinite negative, .finite other units | .finite other units, .infinite negative =>
      if units = 0 then .notANumber else .infinite (negative != other)
  | .infinite negative, .infinite other => .infinite (negative != other)
  | .notANumber, _ | _, .notANumber => .notANumber

instance : Add Double := ⟨add⟩

instance : Mul Double := ⟨multiply⟩

/-! ## Writing -/

def order (units : Nat) : Int :=
  let digits := Nat.toDigits 10 (units * Nat.pow 10 324 / unitsPerOne)
  (digits.length : Int) - 325

def decimalOf (units count : Nat) : Nat × Int :=
  let places := (count : Int) - 1 - order units
  (nearest (units * Nat.pow 10 places.toNat) (unitsPerOne * Nat.pow 10 (-places).toNat), -places)

def shortest (units : Nat) : Nat × Int :=
  let readsBack (count : Nat) : Bool :=
    let (digits, exponent) := decimalOf units count
    ofDecimal false digits exponent = .finite false units
  decimalOf units (((List.range 17).map (· + 1)).find? readsBack |>.getD 17)

/-- Digits with a point behind the first `point` of them, or with an exponent if the point lies
far away from them. -/
def layOut (digits : List Char) (point : Int) : List Char :=
  if -4 < point ∧ point ≤ 16 then
    if point ≤ 0 then "0.".toList ++ List.replicate (-point).toNat '0' ++ digits
    else
      let padded := digits ++ List.replicate (point.toNat - digits.length) '0'
      let fraction := padded.drop point.toNat
      padded.take point.toNat ++ '.' :: (if fraction.isEmpty then ['0'] else fraction)
  else
    let exponent := point - 1
    let size := (toString exponent.natAbs).toList
    digits.take 1 ++ (if digits.length ≤ 1 then [] else '.' :: digits.drop 1) ++
      ['e', if exponent < 0 then '-' else '+'] ++ (if size.length < 2 then '0' :: size else size)

def text : Double → List Char
  | .finite negative units =>
      let sign := if negative then ['-'] else []
      if units = 0 then sign ++ "0.0".toList
      else
        let (value, exponent) := shortest units
        let digits := Nat.toDigits 10 value
        let zeros := (digits.reverse.takeWhile (· = '0')).length
        sign ++ layOut (digits.take (digits.length - zeros)) (digits.length + exponent)
  | .infinite negative => (if negative then "-Infinity" else "Infinity").toList
  | .notANumber => "NaN".toList

example : String.ofList (ofDecimal true 25 (-2)).text = "-0.25" := by decide +kernel

/-- Far from the point, digits are written with an exponent. -/
example : String.ofList (ofDecimal false 15 (-8)).text = "1.5e-07" := by decide +kernel

end Double

end TableSchema.Data
