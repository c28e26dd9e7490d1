import TableSchema.Data.Yaml.Place
import TableSchema.Text.Quoted

/-! Quoted scalars. Lines are folded, and between double quotes a backslash escapes what follows
it. An escape may name a code point that is no character, so what a scalar says is a list of
code points. -/

namespace TableSchema.Data.Yaml

open Text (apostrophe)

/-! ## Escapes -/

def yamlEscape? (character : Char) : Option Nat :=
  [('0', 0x00), ('a', 0x07), ('b', 0x08), ('t', 0x09), ('\t', 0x09), ('n', 0x0A), ('v', 0x0B),
    ('f', 0x0C), ('r', 0x0D), ('e', 0x1B), (' ', 0x20), ('"', 0x22), ('\\', 0x5C), ('/', 0x2F),
    ('N', 0x85), ('_', 0xA0), ('L', 0x2028), ('P', 0x2029)].lookup character

def hexEscapeWidth? (letter : Char) : Option Nat :=
  [('x', 2), ('u', 4), ('U', 8)].lookup letter

def hexEscapeValue (width : Nat) (text : List Char) : Except Fault Nat :=
  let values := (text.take width).filterMap hexDigitValue?
  if values.length < width then .error (.form .badEscape)
  else
    let code := values.foldl (fun value digit => value * 16 + digit) 0
    if 0x7FFFFFFF < code then .error .escapeOverflow
    else if 0x10FFFF < code then .error (.value .codePoint)
    else .ok code

def readEscape (place : Place) : Except Fault (Nat × Place) :=
  match place.rest with
  | [] => .error (.form .badEscape)
  | letter :: rest =>
      match yamlEscape? letter, hexEscapeWidth? letter with
      | some code, _ => .ok (code, place.step)
      | none, some width => (hexEscapeValue width rest).map (·, place.skip (width + 1))
      | none, none => .error (.form .badEscape)

/-! ## Lines -/

def quotedBreaks (read : List Char) : (lines : Nat) → Place → Except Fault (List Char × Place)
  | 0, _ => .error (.form .tooDeep)
  | lines + 1, place =>
      if place.isAtSomeMarker then .error (.form .misplaced)
      else
        let next := place.skipGap
        match next.rest with
        | character :: _ =>
            if isBreak character then quotedBreaks (breakChar character :: read) lines next.step
            else .ok (read.reverse, next)
        | [] => .ok (read.reverse, next)

def codePoints (text : List Char) : List Nat := (text.map Char.toNat).reverse

def quotedFrom (double : Bool) (read : List Nat) :
    (characters : Nat) → Place → Except Fault (List Nat × Place)
  | 0, _ => .error (.form .tooDeep)
  | characters + 1, place =>
      match place.rest with
      | [] => .error (.form .unclosed)
      | character :: rest =>
          if isGap character || isBreak character then
            let gap := place.rest.takeWhile isGap
            let next := place.skip gap.length
            match next.rest with
            | [] => .error (.form .unclosed)
            | first :: _ =>
                if isBreak first then do
                  let (more, next) ← quotedBreaks [] characters next.step
                  quotedFrom double (codePoints (foldBreaks first more) ++ read) characters next
                else quotedFrom double (codePoints gap ++ read) characters next
          else if double && character == '\\' then
            if rest.head?.any isBreak then do
              let (more, next) ← quotedBreaks [] characters (place.skip 2)
              quotedFrom double (codePoints more ++ read) characters next
            else do
              let (code, next) ← readEscape place.step
              quotedFrom double (code :: read) characters next
          else if double && character == '"' then .ok (read.reverse, place.step)
          else if !double && character == apostrophe then
            if rest.head? = some apostrophe then
              quotedFrom double (character.toNat :: read) characters (place.skip 2)
            else .ok (read.reverse, place.step)
          else quotedFrom double (character.toNat :: read) characters place.step

def quotedScalar (characters : Nat) (place : Place) : Except Fault (List Nat × Place) :=
  quotedFrom (place.head? == some '"') [] characters place.step

def quotedText? (text : String) : Option String :=
  (quotedScalar (text.length + 1) { rest := text.toList }).toOption.map fun (read, _) =>
    String.ofList (read.map Char.ofNat)

/-- An escaped end of a line is dropped, but not those of empty lines behind it. -/
example : quotedText? "\"a\\\n\n  b\"" = some "a\nb" ∧ quotedText? "'a\n  b'" = some "a b" := by
  decide +kernel

end TableSchema.Data.Yaml
