import TableSchema.Data.Yaml.Place

/-! Block scalars: lines that are indented more deeply than what holds them. Behind a bar they are
kept as they are, behind a greater-than sign they are folded. -/

namespace TableSchema.Data.Yaml

/-- What becomes of the last end of a line and of the empty lines behind it. -/
inductive Chomping where
  /-- Only the end of the last line is kept. -/
  | clip
  | strip
  | keep
  deriving DecidableEq, Repr

structure BlockHead where
  chomping : Chomping := .clip
  /-- How much deeper the lines are indented; if nothing is said the first line tells. -/
  increment : Option Nat := none
  deriving DecidableEq, Repr

/-! ## Head -/

def chomping? (character : Char) : Option Chomping :=
  if character = '+' then some .keep else if character = '-' then some .strip else none

def readBlockHead (place : Place) : Except Fault (BlockHead × Place) := do
  let digit? (place : Place) : Option Nat :=
    (place.head?.filter isAsciiDigit).map fun digit => asciiNumber [digit]
  let sign? (place : Place) : Option Chomping := place.head?.bind chomping?
  let (head, next) : BlockHead × Place :=
    match sign? place, digit? place with
    | some chomping, _ =>
        match digit? place.step with
        | some increment => (⟨chomping, some increment⟩, place.skip 2)
        | none => (⟨chomping, none⟩, place.step)
    | none, some increment =>
        match sign? place.step with
        | some chomping => (⟨chomping, some increment⟩, place.skip 2)
        | none => (⟨.clip, some increment⟩, place.step)
    | none, none => ({}, place)
  if head.increment = some 0 || !endsWord next.rest then .error (.form .badHead)
  else .ok (head, ← next.finishLine)

/-! ## Lines -/

def blockStart (read : List Char) (column : Nat) :
    (characters : Nat) → Place → List Char × Nat × Place
  | 0, place => (read.reverse, column, place)
  | characters + 1, place =>
      match place.rest with
      | character :: _ =>
          if character = ' ' then
            blockStart read (max column place.step.column) characters place.step
          else if isBreak character then
            blockStart (breakChar character :: read) column characters place.step
          else (read.reverse, column, place)
      | [] => (read.reverse, column, place)

/-- The place behind the spaces on a line, but not beyond the column `indent`. -/
def Place.indentTo (place : Place) (indent : Nat) : Place :=
  place.skip ((place.rest.take (indent - place.column)).takeWhile (· = ' ')).length

def blockBreaks (indent : Nat) (read : List Char) : (lines : Nat) → Place → List Char × Place
  | 0, place => (read.reverse, place)
  | lines + 1, place =>
      let next := place.indentTo indent
      match next.rest with
      | character :: _ =>
          if isBreak character then blockBreaks indent (breakChar character :: read) lines next.step
          else (read.reverse, next)
      | [] => (read.reverse, next)

structure BlockLines where
  /-- The text up to the last line, without its end. -/
  text : List Char
  /-- The end of the last line, if there are lines and they end. -/
  lastBreak : List Char
  more : List Char
  next : Place

def blockLinesFrom (folded : Bool) (indent : Nat) (read breaks : List Char) :
    (lines : Nat) → Place → BlockLines
  | 0, place => ⟨read.reverse, [], breaks, place⟩
  | lines + 1, place =>
      if place.column ≠ indent || place.rest.isEmpty then ⟨read.reverse, [], breaks, place⟩
      else
        let finish := place.skipLine
        let line := place.rest.take (finish.index - place.index)
        let read := line.reverse ++ breaks.reverse ++ read
        let lastBreak := finish.head?.toList.map breakChar
        let (breaks, next) := blockBreaks indent [] lines finish.step
        if next.column ≠ indent || next.rest.isEmpty then ⟨read.reverse, lastBreak, breaks, next⟩
        else
          let joins := folded && lastBreak == ['\n'] && !place.head?.any isGap &&
            !next.head?.any isGap
          let between := if !joins then lastBreak else if breaks.isEmpty then [' '] else []
          blockLinesFrom folded indent (between.reverse ++ read) breaks lines next

def blockScalar (folded : Bool) (outer : Int) (characters : Nat) (place : Place) :
    Except Fault (List Char × Place) := do
  let (head, start) ← readBlockHead place.step
  let least := max 1 (outer + 1).toNat
  let (indent, breaks, start) : Nat × List Char × Place :=
    match head.increment with
    | some increment =>
        let indent := least + increment - 1
        let (breaks, next) := blockBreaks indent [] characters start
        (indent, breaks, next)
    | none =>
        let (breaks, column, next) := blockStart [] 0 characters start
        (max least column, breaks, next)
  let lines := blockLinesFrom folded indent [] breaks characters start
  let ending := match head.chomping with
    | .strip => []
    | .clip => lines.lastBreak
    | .keep => lines.lastBreak ++ lines.more
  .ok (lines.text ++ ending, lines.next)

def blockText? (text : String) : Option String :=
  let folded := text.toList.head? = some '>'
  (blockScalar folded (-1) (text.length + 1) { rest := text.toList }).toOption.map
    fun (read, _) => String.ofList read

example : blockText? "|\n  a\n   b\n\n" = some "a\n b\n" := by decide +kernel

/-- A folded text has blanks for single line ends. -/
example : blockText? ">-\n a\n b\n" = some "a b" := by decide +kernel

end TableSchema.Data.Yaml
