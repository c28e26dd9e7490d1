/-! UTF-8. A text is read octet by octet; the first octet of a character says how many follow
and narrows the range of the second one, so that neither overlong forms nor surrogates nor
code points beyond U+10FFFF are accepted. A fault names the octets that are wrong. -/

namespace TableSchema.Text.Utf8

structure Pending where
  /-- Octets that are still to come; at least one. -/
  needed : Nat
  low : Nat
  high : Nat
  bits : Nat
  octets : List UInt8

inductive Reason where
  | invalidStart
  | invalidContinuation
  | unexpectedEnd
  deriving DecidableEq

structure Fault where
  reason : Reason
  position : Nat
  octets : List UInt8

/-- How a character goes on after its first octet; `none` if no character starts so. -/
def start? (octet : UInt8) : Option Pending :=
  let lead := octet.toNat
  if 0xC2 ≤ lead ∧ lead ≤ 0xDF then some ⟨1, 0x80, 0xBF, lead - 0xC0, [octet]⟩
  else if lead = 0xE0 then some ⟨2, 0xA0, 0xBF, 0, [octet]⟩
  else if lead = 0xED then some ⟨2, 0x80, 0x9F, 0xD, [octet]⟩
  else if 0xE1 ≤ lead ∧ lead ≤ 0xEF then some ⟨2, 0x80, 0xBF, lead - 0xE0, [octet]⟩
  else if lead = 0xF0 then some ⟨3, 0x90, 0xBF, 0, [octet]⟩
  else if lead = 0xF4 then some ⟨3, 0x80, 0x8F, 4, [octet]⟩
  else if 0xF1 ≤ lead ∧ lead ≤ 0xF3 then some ⟨3, 0x80, 0xBF, lead - 0xF0, [octet]⟩
  else none

def decodeFrom (position : Nat) : Option Pending → List UInt8 → Except Fault (List Char)
  | none, [] => .ok []
  | some pending, [] =>
      .error ⟨.unexpectedEnd, position - pending.octets.length, pending.octets⟩
  | none, octet :: rest =>
      if octet.toNat < 0x80 then
        (Char.ofNat octet.toNat :: ·) <$> decodeFrom (position + 1) none rest
      else match start? octet with
        | some pending => decodeFrom (position + 1) (some pending) rest
        | none => .error ⟨.invalidStart, position, [octet]⟩
  | some pending, octet :: rest =>
      if pending.low ≤ octet.toNat ∧ octet.toNat ≤ pending.high then
        let bits := pending.bits * 64 + (octet.toNat - 0x80)
        if pending.needed ≤ 1 then
          (Char.ofNat bits :: ·) <$> decodeFrom (position + 1) none rest
        else
          decodeFrom (position + 1)
            (some ⟨pending.needed - 1, 0x80, 0xBF, bits, pending.octets ++ [octet]⟩) rest
      else
        .error ⟨.invalidContinuation, position - pending.octets.length, pending.octets⟩

def decode (octets : List UInt8) : Except Fault (List Char) := decodeFrom 0 none octets

/-! ## Streams -/

def blockSize : Nat := 8192

def isContinuation (octet : UInt8) : Bool := 0x80 ≤ octet.toNat && octet.toNat ≤ 0xBF

/-- How many octets right before a place belong to the character that goes on at that place. -/
def carried (octets : List UInt8) (place : Nat) : Nat :=
  if (octets[place]?).any isContinuation then
    (((octets.take place).reverse.take 3).takeWhile isContinuation).length + 1
  else 0

/-- A fault as it is met when the octets come from a stream, in blocks. Places count from the
start of a block, or from the start of the character that it goes on with. A character cut off
by the end is looked at by itself. -/
def Fault.streamed (fault : Fault) (octets : List UInt8) : Fault :=
  let met := match fault.reason with
    | .invalidContinuation => fault.position + fault.octets.length
    | _ => fault.position
  let block := met / blockSize * blockSize
  match fault.reason with
  | .unexpectedEnd => { fault with position := 0 }
  | _ =>
      if fault.position ≤ block then { fault with position := 0 }
      else { fault with position := fault.position - block + carried octets block }

/-! ## Wording -/

def Reason.message : Reason → String
  | .invalidStart => "invalid start byte"
  | .invalidContinuation => "invalid continuation byte"
  | .unexpectedEnd => "unexpected end of data"

def hexPair (octet : UInt8) : String :=
  String.ofList [Nat.digitChar (octet.toNat / 16), Nat.digitChar (octet.toNat % 16)]

/-- A single wrong octet is shown; of several the places are given. -/
def Fault.message (fault : Fault) : String :=
  let place := match fault.octets with
    | [octet] => s!"byte 0x{hexPair octet} in position {fault.position}"
    | octets => s!"bytes in position {fault.position}-{fault.position + octets.length - 1}"
  "'utf-8' codec can't decode " ++ place ++ ": " ++ fault.reason.message

example : (decode [0x61, 0xC3, 0xA9]).toOption = some ['a', 'é'] := by decide

/-- The first octet of a surrogate is refused together with what would make it one. -/
example : (Fault.mk .invalidContinuation 0 [0xED]).message =
    "'utf-8' codec can't decode byte 0xed in position 0: invalid continuation byte" := by
  decide

end TableSchema.Text.Utf8
