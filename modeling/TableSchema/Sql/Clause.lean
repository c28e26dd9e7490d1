import TableSchema.Sql.Mask
import TableSchema.Text.Blank

/-! Clauses. The body of a statement is cut at the commas outside all parentheses; each piece
that holds anything is a clause. Line comments that stand behind a clause on its line are
moved to its end. -/

namespace TableSchema.Sql

open Text

/-! ## Cuts -/

/-- The places of the commas outside parentheses in a masked text that starts at `place`;
`depth` counts the parentheses that are open there. -/
def cutsFrom (place : Nat) (depth : Int) : List Char → List Nat
  | [] => []
  | character :: rest =>
      if character = '(' then cutsFrom (place + 1) (depth + 1) rest
      else if character = ')' then cutsFrom (place + 1) (depth - 1) rest
      else if character = ',' ∧ depth = 0 then place :: cutsFrom (place + 1) depth rest
      else cutsFrom (place + 1) depth rest

def cuts (body : List Char) : List Nat := cutsFrom 0 0 (mask body)

example : cuts "a(1,2),b".toList = [6] := by decide

def piecesFrom (start : Nat) (text : List Char) : List Nat → List (Nat × List Char)
  | [] => [(start, text)]
  | cut :: rest =>
      (start, text.take (cut - start)) ::
        piecesFrom (cut + 1) (text.drop (cut + 1 - start)) rest

/-! ## Comments behind clauses -/

/-- The place of the last character of a text that is neither blank nor behind a line feed that
follows it: what stands last on the line that is open at the end of the text. -/
def lastOnLine? (text : List Char) : Option Nat :=
  let line := text.reverse.takeWhile (· ≠ '\n')
  let blanks := (line.takeWhile isBlank).length
  if blanks = line.length then none else some (text.length - 1 - blanks)

structure TrailingComment where
  codePlace : Nat
  text : List Char
  deriving DecidableEq, Repr

def commentText (comment : List Char) : List Char := trim (comment.drop 2)

def trailingComments (body : List Char) : List TrailingComment :=
  let masked := mask body
  (scan body).filterMap fun region => do
    if region.kind = .lineComment then
      let codePlace ← lastOnLine? (masked.take region.start)
      let text := commentText ((body.drop region.start).take (region.stop - region.start))
      if text.isEmpty then none else some ⟨codePlace, text⟩
    else none

/-- Which piece a place belongs to; a comma belongs to the piece that it ends. -/
def pieceIndex (cuts : List Nat) (place : Nat) : Nat := cuts.countP (· < place)

/-! ## Clauses -/

/-- A clause, with the place in the body where its first character stands. -/
structure Clause where
  text : List Char
  offset : Nat
  deriving DecidableEq, Repr

def clauseOf? (piece : Nat × List Char) (comments : List (List Char)) : Option Clause :=
  let code := trim piece.2
  if code.isEmpty then none
  else
    let text := if comments.isEmpty then code else code ++ " -- ".toList ++ joinWords comments
    some ⟨text, piece.1 + blanksAtStart piece.2⟩

def ownedComments (body : List Char) : List (Nat × List Char) :=
  let cuts := cuts body
  (trailingComments body).map fun comment => (pieceIndex cuts comment.codePlace, comment.text)

def clauses (body : List Char) : List Clause :=
  let owned := ownedComments body
  ((piecesFrom 0 (stripComments body) (cuts body)).zipIdx).filterMap fun (piece, index) =>
    clauseOf? piece ((owned.filter (·.1 = index)).map (·.2))

example : (clauses "a int, -- one\n b text".toList).map (·.text) =
    ["a int -- one".toList, "b text".toList] := by decide +kernel

end TableSchema.Sql
