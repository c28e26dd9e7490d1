import TableSchema.Data.JsonReader
import TableSchema.Text.Utf8

/-! Targets of requests: a path, and parameters behind a question mark. Names and values of
parameters are percent-encoded. A query is sent as octets, each of which stands for one
character, so characters beyond ASCII have to be encoded. -/

namespace TableSchema.Web

open Text

/-! ## Percent-encoding -/

def lenientFrom (pending : Option Utf8.Pending) : List UInt8 → List Char
  | [] => if pending.isSome then [Char.ofNat 0xFFFD] else []
  | octet :: rest =>
      let code := octet.toNat
      let continued := pending.filter fun pending => pending.low ≤ code ∧ code ≤ pending.high
      match continued with
      | some pending =>
          let bits := pending.bits * 64 + (code - 0x80)
          if pending.needed ≤ 1 then Char.ofNat bits :: lenientFrom none rest
          else lenientFrom
            (some ⟨pending.needed - 1, 0x80, 0xBF, bits, pending.octets ++ [octet]⟩) rest
      | none =>
          let broken := if pending.isSome then [Char.ofNat 0xFFFD] else []
          if code < 0x80 then broken ++ Char.ofNat code :: lenientFrom none rest
          else match Utf8.start? octet with
            | some started => broken ++ lenientFrom (some started) rest
            | none => broken ++ Char.ofNat 0xFFFD :: lenientFrom none rest

def percentOctets : (skip : Nat) → List Char → List UInt8
  | _, [] => []
  | skip + 1, _ :: rest => percentOctets skip rest
  | 0, character :: rest =>
      match character, rest with
      | '%', high :: low :: _ =>
          match Data.hexDigitValue? high, Data.hexDigitValue? low with
          | some high, some low => UInt8.ofNat (high * 16 + low) :: percentOctets 2 rest
          | _, _ => '%'.toUInt8 :: percentOctets 0 rest
      | character, _ => character.toUInt8 :: percentOctets 0 rest

/-- A text in which runs of ASCII characters are percent-encoded, each run by itself. The
characters of the current run that have been read are `run`, the last one first. -/
def decodeRuns (run : List Char) : List Char → List Char
  | [] => lenientFrom none (percentOctets 0 run.reverse)
  | character :: rest =>
      if character.val < 0x80 then decodeRuns (character :: run) rest
      else lenientFrom none (percentOctets 0 run.reverse) ++ character :: decodeRuns [] rest

def octetChars (text : List Char) : List Char :=
  (String.ofList text).toUTF8.data.toList.map fun octet => Char.ofNat octet.toNat

def decodePart (part : List Char) : String :=
  let spaced := part.map fun character => if character = '+' then ' ' else character
  String.ofList (decodeRuns [] (octetChars spaced))

example : decodePart "a+b%C3%A9".toList = "a bé" ∧ decodePart ['é'] = "Ã©" := by decide +kernel

/-! ## Parameters -/

def parts : List Char → List (List Char)
  | [] => [[]]
  | character :: rest =>
      if character = '&' then [] :: parts rest
      else match parts rest with
        | [] => [[character]]
        | part :: more => (character :: part) :: more

/-- The name and the value of a parameter. Without an equals sign the value is empty. -/
def parameterOf (part : List Char) : String × String :=
  (decodePart (part.takeWhile (· ≠ '=')), decodePart ((part.dropWhile (· ≠ '=')).drop 1))

structure Target where
  path : String
  /-- What stands behind the question mark, as it is written. -/
  query : String
  deriving DecidableEq, Repr

namespace Target

def ofString (text : String) : Target where
  path := String.ofList (text.toList.takeWhile (· ≠ '?'))
  query := String.ofList ((text.toList.dropWhile (· ≠ '?')).drop 1)

def parameters (target : Target) : List (String × String) :=
  ((parts target.query.toList).filter (!·.isEmpty)).map parameterOf

def parameter? (target : Target) (name : String) : Option String :=
  target.parameters.reverse.lookup name

def address (target : Target) : String :=
  s!"http://test{target.path}" ++ if target.query.isEmpty then "" else s!"?{target.query}"

end Target

example : (Target.ofString "/x?format=csv&format=json").parameter? "format" = some "json" := by
  decide +kernel

end TableSchema.Web
