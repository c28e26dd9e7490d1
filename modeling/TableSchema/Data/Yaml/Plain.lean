import TableSchema.Data.Yaml.Place

/-! Plain scalars. They end where a mapping or a comment would be read otherwise, and in flow
collections at the characters that structure these. -/

namespace TableSchema.Data.Yaml

def isFlowMark (character : Char) : Bool := character ∈ [',', '[', ']', '\x7b', '\x7d']

/-- Characters that start no plain scalar, but for dash, question mark and colon, which may if no
blank follows. -/
def isIndicator (character : Char) : Bool :=
  isFlowMark character || "-?:#&*!|>'\"%@`".toList.contains character

def startsPlain (inFlow : Bool) : List Char → Bool
  | [] => false
  | character :: rest =>
      (!endsToken (character :: rest) && !isIndicator character) ||
        (!endsToken rest &&
          (character == '-' || (!inFlow && (character == '?' || character == ':'))))

def endsPiece (inFlow : Bool) : List Char → Bool
  | [] => true
  | ':' :: rest => endsToken rest || (inFlow && rest.head?.any isFlowMark)
  | character :: rest =>
      endsToken (character :: rest) || (inFlow && (isFlowMark character || character == '?'))

def pieceLength (inFlow : Bool) (read : Nat) : List Char → Nat
  | [] => read
  | character :: rest =>
      if endsPiece inFlow (character :: rest) then read else pieceLength inFlow (read + 1) rest

/-- The ends of empty lines behind the end of a line in a plain scalar, and the next place that is
no space. There are none if something that separates documents starts a line. The first ones
have been read, the last one first, and the bound `lines` is greater than the number of the
other ones. -/
def plainBreaks (read : List Char) : (lines : Nat) → Place → Option (List Char) × Place
  | 0, place => (none, place)
  | lines + 1, place =>
      if place.isAtSomeMarker then (none, place)
      else
        let next := place.skipSpaces
        match next.rest with
        | character :: _ =>
            if isBreak character then plainBreaks (breakChar character :: read) lines next.step
            else (some read.reverse, next)
        | [] => (some read.reverse, next)

structure PlainGap where
  /-- What the gap comes to; nothing if the scalar ends in front of it. -/
  text : List Char
  crossesLine : Bool
  next : Place

def plainGap (lines : Nat) (place : Place) : PlainGap :=
  let spaces := place.rest.takeWhile (· = ' ')
  let next := place.skip spaces.length
  match next.rest with
  | [] => ⟨spaces, false, next⟩
  | first :: _ =>
      if isBreak first then
        match plainBreaks [] lines next.step with
        | (some more, next) => ⟨foldBreaks first more, true, next⟩
        | (none, next) => ⟨[], true, next⟩
      else ⟨spaces, false, next⟩

structure PlainScalar where
  text : List Char
  crossesLine : Bool
  next : Place

/-- The plain scalar of which pieces have been read, the last character first, and a gap behind
them. In a block it goes on only over lines that are indented by at least `indent`. The bound
`pieces` is greater than the number of pieces and lines that follow. -/
def plainFrom (inFlow : Bool) (indent : Int) (read : List Char) (gap : PlainGap) :
    (pieces : Nat) → PlainScalar
  | 0 => ⟨read.reverse, gap.crossesLine, gap.next⟩
  | pieces + 1 =>
      let start := gap.next
      let length := if start.head? = some '#' then 0 else pieceLength inFlow 0 start.rest
      if length = 0 then ⟨read.reverse, gap.crossesLine, start⟩
      else
        let read := (start.rest.take length).reverse ++ gap.text.reverse ++ read
        let next := plainGap pieces (start.skip length)
        if next.text.isEmpty || next.next.head? == some '#' ||
            (!inFlow && next.next.column < indent) then
          ⟨read.reverse, next.crossesLine, next.next⟩
        else plainFrom inFlow indent read next pieces

def plainScalar (inFlow : Bool) (indent : Int) (pieces : Nat) (place : Place) : PlainScalar :=
  plainFrom inFlow indent [] ⟨[], false, place⟩ pieces

def plainText (text : String) : String :=
  String.ofList (plainScalar false 0 (text.length + 1) { rest := text.toList }).text

/-- A colon ends a scalar if a blank follows it, and the gap in front of it does not count. -/
example : plainText "a:b  c\n d : e" = "a:b  c d" := by decide +kernel

end TableSchema.Data.Yaml
