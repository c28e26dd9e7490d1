import TableSchema.Data.Yaml.Block
import TableSchema.Data.Yaml.Plain
import TableSchema.Data.Yaml.Quoted

/-! Tokens of YAML. In blocks the indentation of lines tells where collections start and end. That
something is a key is known only when the colon behind it is met, so the places where a key may
start are remembered, and the tokens of a key are put in afterwards. Such a key stands on one
line and is not long. -/

namespace TableSchema.Data.Yaml

inductive Token where
  | versionDirective (major : Nat)
  | tagDirective (handle tags : String)
  | otherDirective
  | documentStart
  | documentEnd
  | streamEnd
  | blockSequenceStart
  | blockMappingStart
  | blockEnd
  | flowSequenceStart
  | flowSequenceEnd
  | flowMappingStart
  | flowMappingEnd
  | blockEntry
  | flowEntry
  | key
  | value
  | alias (name : String)
  | anchor (name : String)
  /-- A tag: its handle, if it is not written in full, and what follows. -/
  | tag (handle : Option String) (suffix : String)
  | plain (text : List Char)
  | quoted (codePoints : List Nat)
  /-- The end of what can be read as tokens. -/
  | unreadable (fault : Fault)
  deriving DecidableEq, Repr

/-! ## Names -/

def isNameChar (character : Char) : Bool :=
  character.isAlphanum || character == '-' || character == '_'

def isTagChar (character : Char) : Bool :=
  isNameChar character || ";/?:@&=+$,.!~*'()[]".toList.contains character

def readName (place : Place) : Except Fault (String × Place) :=
  let name := place.rest.takeWhile isNameChar
  if name.isEmpty then .error (.form .badHead)
  else .ok (String.ofList name, place.skip name.length)

def readAnchor (place : Place) : Except Fault (String × Place) := do
  let (name, next) ← readName place.step
  if endsToken next.rest || next.head?.any ("?:,]\x7d%@`".toList.contains ·) then .ok (name, next)
  else .error (.form .badHead)

def readTagChars (place : Place) : Except Fault (String × Place) :=
  let text := place.rest.takeWhile isTagChar
  if text.isEmpty then .error (.form .badHead)
  else .ok (String.ofList text, place.skip text.length)

def readHandle (place : Place) : Except Fault (String × Place) :=
  match place.rest with
  | '!' :: rest =>
      let name := rest.takeWhile isNameChar
      if rest.head? = some ' ' then .ok ("!", place.step)
      else if (rest.drop name.length).head? = some '!' then
        .ok (String.ofList ('!' :: name ++ ['!']), place.skip (name.length + 2))
      else .error (.form .badHead)
  | _ => .error (.form .badHead)

def readFullTag (place : Place) : Except Fault (Token × Place) := do
  let (suffix, next) ← readTagChars place
  if next.head? = some '>' then .ok (.tag none suffix, next.step) else .error (.form .badHead)

def readTag (place : Place) : Except Fault (Token × Place) := do
  let inside := place.step
  let word := inside.rest.takeWhile fun character => character != ' ' && !isBreak character
  let (token, next) ←
    if inside.head? = some '<' then readFullTag inside.step
    else if endsToken inside.rest then pure (.tag none "!", inside)
    else do
      let (handle, next) ← if word.contains '!' then readHandle place else pure ("!", inside)
      let (suffix, next) ← readTagChars next
      pure (Token.tag (some handle) suffix, next)
  if endsWord next.rest then .ok (token, next) else .error (.form .badHead)

/-! ## Directives -/

def readDigits (place : Place) : Except Fault (Nat × Place) :=
  let digits := place.rest.takeWhile isAsciiDigit
  if digits.isEmpty then .error (.form .badHead)
  else .ok (asciiNumber digits, place.skip digits.length)

def readVersion (place : Place) : Except Fault (Token × Place) := do
  let (major, next) ← readDigits place.skipSpaces
  if next.head? ≠ some '.' then .error (.form .badHead)
  else do
    let (_, next) ← readDigits next.step
    if endsWord next.rest then .ok (.versionDirective major, next) else .error (.form .badHead)

def readTagDirective (place : Place) : Except Fault (Token × Place) := do
  let (handle, next) ← readHandle place.skipSpaces
  if next.head? ≠ some ' ' then .error (.form .badHead)
  else do
    let (tags, next) ← readTagChars next.skipSpaces
    if endsWord next.rest then .ok (.tagDirective handle tags, next) else .error (.form .badHead)

def readDirective (place : Place) : Except Fault (Token × Place) := do
  let (name, next) ← readName place.step
  if !endsWord next.rest then .error (.form .badHead)
  else do
    let (token, next) ←
      if name = "YAML" then readVersion next
      else if name = "TAG" then readTagDirective next
      else pure (Token.otherDirective, next.skipLine)
    .ok (token, ← next.finishLine)

/-! ## The scanner -/

structure PossibleKey where
  /-- How many tokens there are in front of it. -/
  token : Nat
  /-- Whether nothing but a key may stand there. -/
  required : Bool
  index : Nat
  line : Nat
  column : Nat

structure Scanner where
  place : Place
  /-- The columns of the open block collections, the innermost first. -/
  indents : List Int := [-1]
  /-- Whether a key may start at the next token. -/
  keyAllowed : Bool := true
  /-- Where keys may have started: in the innermost flow collection first, outside of all of them
  last. -/
  keys : List (Option PossibleKey) := [none]
  /-- The tokens, the last one first. -/
  tokens : List Token := []
  count : Nat := 0

namespace Scanner

def indent (scanner : Scanner) : Int := scanner.indents.headD (-1)

def inFlow (scanner : Scanner) : Bool := 1 < scanner.keys.length

def longestKey : Nat := 1024

def emit (scanner : Scanner) (token : Token) : Scanner :=
  { scanner with tokens := token :: scanner.tokens, count := scanner.count + 1 }

def moveTo (scanner : Scanner) (place : Place) : Scanner := { scanner with place }

def allowKey (scanner : Scanner) (keyAllowed : Bool) : Scanner := { scanner with keyAllowed }

def stillPossible (place : Place) : Option PossibleKey → Except Fault (Option PossibleKey)
  | none => .ok none
  | some key =>
      if key.line = place.line ∧ place.index ≤ key.index + longestKey then .ok (some key)
      else if key.required then .error (.form .noColon)
      else .ok none

def dropStaleKeys (scanner : Scanner) : Except Fault Scanner := do
  .ok { scanner with keys := ← scanner.keys.mapM (stillPossible scanner.place) }

def forgetKey (scanner : Scanner) : Except Fault Scanner :=
  match scanner.keys with
  | some key :: rest =>
      if key.required then .error (.form .noColon)
      else .ok { scanner with keys := none :: rest }
  | _ => .ok scanner

def rememberKey (scanner : Scanner) : Except Fault Scanner :=
  if !scanner.keyAllowed then .ok scanner
  else do
    let scanner ← scanner.forgetKey
    let place := scanner.place
    let key : PossibleKey := {
      token := scanner.count
      required := !scanner.inFlow && scanner.indent == place.column
      index := place.index
      line := place.line
      column := place.column }
    .ok { scanner with keys := some key :: scanner.keys.drop 1 }

def closeBlocks (scanner : Scanner) (column : Int) : Scanner :=
  if scanner.inFlow then scanner
  else
    let closed := (scanner.indents.takeWhile (column < ·)).length
    { scanner with
      indents := scanner.indents.drop closed
      tokens := List.replicate closed .blockEnd ++ scanner.tokens
      count := scanner.count + closed }

/-- Open a block collection at a column, unless one is open there, and put its token behind the
first `count` tokens. -/
def openBlock (scanner : Scanner) (column count : Nat) (token : Token) : Scanner :=
  if scanner.indent < column then
    let later := scanner.count - count
    { scanner with
      indents := column :: scanner.indents
      tokens := scanner.tokens.take later ++ token :: scanner.tokens.drop later
      count := scanner.count + 1 }
  else scanner

/-! ### Tokens -/

def scanSign (scanner : Scanner) (token : Token) (length : Nat) (keyAllowed : Bool) : Scanner :=
  ((scanner.emit token).moveTo (scanner.place.skip length)).allowKey keyAllowed

def scanEnd (scanner : Scanner) : Except Fault Scanner := do
  let scanner ← (scanner.closeBlocks (-1)).forgetKey
  .ok (scanner.emit .streamEnd)

def scanMarker (scanner : Scanner) (token : Token) : Except Fault Scanner := do
  let scanner ← (scanner.closeBlocks (-1)).forgetKey
  .ok (scanner.scanSign token 3 false)

def scanDirective (scanner : Scanner) : Except Fault Scanner := do
  let scanner ← (scanner.closeBlocks (-1)).forgetKey
  let (token, next) ← readDirective scanner.place
  .ok (((scanner.emit token).moveTo next).allowKey false)

def scanFlowStart (scanner : Scanner) (token : Token) : Except Fault Scanner := do
  let scanner ← scanner.rememberKey
  .ok ({ scanner with keys := none :: scanner.keys }.scanSign token 1 true)

def scanFlowEnd (scanner : Scanner) (token : Token) : Except Fault Scanner := do
  let scanner ← scanner.forgetKey
  if !scanner.inFlow then .error (.form .misplaced)
  else .ok ({ scanner with keys := scanner.keys.drop 1 }.scanSign token 1 false)

def scanFlowEntry (scanner : Scanner) : Except Fault Scanner := do
  .ok ((← scanner.forgetKey).scanSign .flowEntry 1 true)

def scanMark (scanner : Scanner) (start token : Token) (keyAllowed : Bool) :
    Except Fault Scanner :=
  if !scanner.inFlow && !scanner.keyAllowed then .error (.form .misplaced)
  else do
    let scanner :=
      if scanner.inFlow then scanner
      else scanner.openBlock scanner.place.column scanner.count start
    .ok ((← scanner.forgetKey).scanSign token 1 keyAllowed)

def scanValue (scanner : Scanner) : Except Fault Scanner :=
  match scanner.keys with
  | some key :: rest =>
      let later := scanner.count - key.token
      let marked := { scanner with
        keys := none :: rest
        tokens := scanner.tokens.take later ++ Token.key :: scanner.tokens.drop later
        count := scanner.count + 1 }
      let opened :=
        if scanner.inFlow then marked else marked.openBlock key.column key.token .blockMappingStart
      .ok (opened.scanSign .value 1 false)
  | _ => scanner.scanMark .blockMappingStart .value (!scanner.inFlow)

def scanKeyPart (scanner : Scanner) (read : Place → Except Fault (Token × Place)) :
    Except Fault Scanner := do
  let scanner ← scanner.rememberKey
  let (token, next) ← read scanner.place
  .ok (((scanner.emit token).moveTo next).allowKey false)

def scanBlockScalar (scanner : Scanner) (characters : Nat) (folded : Bool) :
    Except Fault Scanner := do
  let scanner ← scanner.forgetKey
  let (text, next) ← blockScalar folded scanner.indent characters scanner.place
  .ok (((scanner.emit (.quoted (text.map Char.toNat))).moveTo next).allowKey true)

def scanPlain (scanner : Scanner) (characters : Nat) : Except Fault Scanner := do
  let scanner ← scanner.rememberKey
  let scalar := plainScalar scanner.inFlow (scanner.indent + 1) characters scanner.place
  .ok (((scanner.emit (.plain scalar.text)).moveTo scalar.next).allowKey scalar.crossesLine)

def scanToken (scanner : Scanner) (characters : Nat) : Except Fault Scanner :=
  let place := scanner.place
  let named (token : String → Token) (place : Place) : Except Fault (Token × Place) :=
    (readAnchor place).map fun (name, next) => (token name, next)
  let quoted (place : Place) : Except Fault (Token × Place) :=
    (quotedScalar characters place).map fun (codePoints, next) => (.quoted codePoints, next)
  match place.rest with
  | [] => scanner.scanEnd
  | character :: rest =>
      let isMark := scanner.inFlow || endsToken rest
      if character = '%' ∧ place.column = 0 then scanner.scanDirective
      else if place.column = 0 ∧ place.isAtMarker "---" then scanner.scanMarker .documentStart
      else if place.column = 0 ∧ place.isAtMarker "..." then scanner.scanMarker .documentEnd
      else if character = '[' then scanner.scanFlowStart .flowSequenceStart
      else if character = '\x7b' then scanner.scanFlowStart .flowMappingStart
      else if character = ']' then scanner.scanFlowEnd .flowSequenceEnd
      else if character = '\x7d' then scanner.scanFlowEnd .flowMappingEnd
      else if character = ',' then scanner.scanFlowEntry
      else if character = '-' ∧ endsToken rest then
        scanner.scanMark .blockSequenceStart .blockEntry true
      else if character = '?' ∧ isMark then
        scanner.scanMark .blockMappingStart .key (!scanner.inFlow)
      else if character = ':' ∧ isMark then scanner.scanValue
      else if character = '*' then scanner.scanKeyPart (named .alias)
      else if character = '&' then scanner.scanKeyPart (named .anchor)
      else if character = '!' then scanner.scanKeyPart readTag
      else if character = '|' ∧ !scanner.inFlow then scanner.scanBlockScalar characters false
      else if character = '>' ∧ !scanner.inFlow then scanner.scanBlockScalar characters true
      else if character = '"' ∨ character = Text.apostrophe then scanner.scanKeyPart quoted
      else if startsPlain scanner.inFlow place.rest then scanner.scanPlain characters
      else .error (.form .misplaced)

def next (scanner : Scanner) (characters : Nat) : Except Fault Scanner := do
  let (crossed, place) := scanner.place.toToken false characters
  let keyAllowed := scanner.keyAllowed || (crossed && !scanner.inFlow)
  let scanner ← ((scanner.moveTo place).allowKey keyAllowed).dropStaleKeys
  (scanner.closeBlocks place.column).scanToken characters

/-- All tokens from here on. Every token takes at least one character, and the bound `characters`
is greater than the number of those. -/
def tokensFrom (scanner : Scanner) : (characters : Nat) → List Token
  | 0 => (.unreadable (.form .tooDeep) :: scanner.tokens).reverse
  | characters + 1 =>
      match scanner.next (characters + 1) with
      | .error fault => (.unreadable fault :: scanner.tokens).reverse
      | .ok scanner =>
          if scanner.tokens.head? = some .streamEnd then scanner.tokens.reverse
          else scanner.tokensFrom characters

end Scanner

def tokens (text : List Char) : List Token :=
  let start : Place := { rest := text }
  let start := if start.head? = some byteOrderMark then start.step else start
  Scanner.tokensFrom { place := start } (text.length + 1)

example : tokens "a: [b]\n".toList = [.blockMappingStart, .key, .plain ['a'], .value,
    .flowSequenceStart, .plain ['b'], .flowSequenceEnd, .blockEnd, .streamEnd] := by
  decide +kernel

/-- No second key may stand on the line of a key. -/
example : (tokens "a: b: c\n".toList).getLast? = some (.unreadable (.form .misplaced)) := by
  decide +kernel

end TableSchema.Data.Yaml
