/-! The text in the body of a request that is read as JSON. It is written in UTF-8, unless zeros
among its first octets tell that every character takes two or four octets. -/

namespace TableSchema.Web

inductive Encoding where
  | utf8
  /-- Two octets, or four for characters beyond U+FFFF. -/
  | utf16 (bigEndian : Bool)
  | utf32 (bigEndian : Bool)
  deriving DecidableEq, Repr

def encodingOf : List UInt8 → Encoding
  | first :: second :: third :: fourth :: _ =>
      if first = 0 then (if second = 0 then .utf32 true else .utf16 true)
      else if second ≠ 0 then .utf8
      else if third = 0 ∧ fourth = 0 then .utf32 false
      else .utf16 false
  | [first, second] =>
      if first = 0 then .utf16 true else if second = 0 then .utf16 false else .utf8
  | _ => .utf8

def numberOf (bigEndian : Bool) (octets : List UInt8) : Nat :=
  (if bigEndian then octets else octets.reverse).foldl (fun value octet =>
    value * 256 + octet.toNat) 0

def pairNumbers (bigEndian : Bool) : List UInt8 → Option (List Nat)
  | [] => some []
  | first :: second :: rest =>
      (pairNumbers bigEndian rest).map (numberOf bigEndian [first, second] :: ·)
  | _ => none

def quadNumbers (bigEndian : Bool) : List UInt8 → Option (List Nat)
  | [] => some []
  | first :: second :: third :: fourth :: rest =>
      (quadNumbers bigEndian rest).map (numberOf bigEndian [first, second, third, fourth] :: ·)
  | _ => none

def isHighHalf (unit : Nat) : Bool := 0xD800 ≤ unit && unit ≤ 0xDBFF

def isLowHalf (unit : Nat) : Bool := 0xDC00 ≤ unit && unit ≤ 0xDFFF

/-- Code points from UTF-16 units: two halves of a pair make one. A first half that has been read
is `high`. -/
def joinPairs (high : Option Nat) : List Nat → List Nat
  | [] => high.toList
  | unit :: rest =>
      match high with
      | some high =>
          if isLowHalf unit then
            (0x10000 + (high - 0xD800) * 0x400 + (unit - 0xDC00)) :: joinPairs none rest
          else if isHighHalf unit then high :: joinPairs (some unit) rest
          else high :: unit :: joinPairs none rest
      | none =>
          if isHighHalf unit then joinPairs (some unit) rest else unit :: joinPairs none rest

def charOf (codePoint : Nat) : Char :=
  if codePoint.isValidChar then Char.ofNat codePoint else Char.ofNat 0xFFFD

/-- The characters of a body. There are none if its octets are not complete, or write numbers that
are no code points. A byte-order mark in front does not count. -/
def bodyText? (body : String) : Option (List Char) :=
  let octets := body.toUTF8.data.toList
  match encodingOf octets with
  | .utf8 =>
      let text := body.toList
      some (if text.head? = some (Char.ofNat 0xFEFF) then text.drop 1 else text)
  | .utf16 bigEndian =>
      (pairNumbers bigEndian octets).map fun units => (joinPairs none units).map charOf
  | .utf32 bigEndian =>
      ((quadNumbers bigEndian octets).filter (·.all (· ≤ 0x10FFFF))).map (·.map charOf)

example : bodyText? "\x00[\x00]" = some ['[', ']'] := by decide +kernel

end TableSchema.Web
