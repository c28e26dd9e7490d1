import TableSchema.Sql.Identifier
import TableSchema.Sql.Mask
import TableSchema.Text.Lines
import TableSchema.Text.Match

/-! CREATE TABLE statements. Headers are looked for in the masked text; a header opens a
parenthesis, and the statement is complete if that is closed again and a semicolon follows.
What lies between the parentheses is the body. Headers of incomplete statements are findings
too, so that every header is accounted for. -/

namespace TableSchema.Sql

open Text

/-! ## Headers -/

/-- What follows an identifier at the front of a masked text: a plain name or a quoted token,
whose inside holds no quote because it is hidden. -/
def afterIdentifier? : List Char → Option (List Char)
  | [] => none
  | '"' :: rest => afterChar? '"' (rest.dropWhile (· ≠ '"'))
  | character :: rest =>
      if isNameStart character then some (rest.dropWhile isNamePart) else none

def afterQualifier? (text : List Char) : Option (List Char) := do
  trimLeft <$> afterChar? '.' (trimLeft (← afterIdentifier? text))

structure Header where
  nameStart : Nat
  nameStop : Nat
  /-- The offset of the opening parenthesis, the last character of the header. -/
  opening : Nat
  deriving DecidableEq, Repr

/-- The header at a place of a masked text: the words that create a table, perhaps only if it
does not exist, then a table name, perhaps qualified, and an opening parenthesis. -/
def headerAt? (previous : Option Char) (text : List Char) : Option Header := do
  if isWordAt previous then none
  else
    let rest ← afterPhrase? ["create".toList, "table".toList] text >>= afterBlanks?
    let rest := (afterPhrase? ["if".toList, "not".toList, "exists".toList] rest
      >>= afterBlanks?).getD rest
    let name := (afterQualifier? rest).getD rest
    let afterName ← afterIdentifier? name
    let opening := trimLeft afterName
    let _ ← afterChar? '(' opening
    some ⟨text.length - name.length, text.length - afterName.length,
      text.length - opening.length⟩

example : headerAt? none "Create Table public.t (a".toList = some ⟨20, 21, 22⟩ := by decide

/-! ## Statements -/

def closingAt? : (inner : Nat) → List Char → Option Nat
  | _, [] => none
  | inner, character :: rest =>
      if character = '(' then (closingAt? (inner + 1) rest).map (· + 1)
      else if character = ')' then
        match inner with
        | 0 => some 0
        | inner + 1 => (closingAt? inner rest).map (· + 1)
      else (closingAt? inner rest).map (· + 1)

structure Statement where
  name : String
  body : String
  /-- The line of the opening parenthesis. -/
  line : Nat
  deriving DecidableEq, Repr

inductive Finding where
  | statement (statement : Statement)
  /-- No parenthesis closes the one that the header opens. -/
  | unbalanced (table : String) (line : Nat)
  /-- No semicolon follows the closing parenthesis. -/
  | unterminated (table : String) (line : Nat)
  deriving DecidableEq, Repr

def slice (text : List Char) (start stop : Nat) : List Char := (text.drop start).take (stop - start)

def findingOf (sql : List Char) (position : Nat) (header : Header) (masked : List Char) :
    Finding × Nat :=
  let name := String.ofList
    (unquote (slice sql (position + header.nameStart) (position + header.nameStop)))
  let inside := header.opening + 1
  match closingAt? 0 (masked.drop inside) with
  | none => (.unbalanced name (lineAt sql position), inside)
  | some length =>
      let blanks := blanksAtStart (masked.drop (inside + length + 1))
      if (masked.drop (inside + length + 1 + blanks)).head? = some ';' then
        let body := String.ofList
          (slice sql (position + inside) (position + inside + length))
        (.statement ⟨name, body, lineAt sql (position + header.opening)⟩,
          inside + length + 1 + blanks + 1)
      else (.unterminated name (lineAt sql position), inside)

def findingsFrom (sql : List Char) (previous : Option Char) (position : Nat) :
    (skip : Nat) → List Char → List Finding
  | _, [] => []
  | skip + 1, character :: rest =>
      findingsFrom sql (some character) (position + 1) skip rest
  | 0, character :: rest =>
      match headerAt? previous (character :: rest) with
      | none => findingsFrom sql (some character) (position + 1) 0 rest
      | some header =>
          let (finding, consumed) := findingOf sql position header (character :: rest)
          finding :: findingsFrom sql (some character) (position + 1) (consumed - 1) rest

/-- All headers of a text and what they belong to, in order. The search goes on behind a
complete statement, and behind the header of an incomplete one. -/
def findings (sql : List Char) : List Finding := findingsFrom sql none 0 0 (mask sql)

def statements (sql : List Char) : List Statement :=
  (findings sql).filterMap fun
    | .statement statement => some statement
    | _ => none

example : statements "CREATE TABLE t (a int);".toList = [⟨"t", "a int", 1⟩] := by decide +kernel

/-- A header inside the body of an incomplete statement is found. -/
example : findings "create table a (create table b (x);".toList =
    [.unbalanced "a" 1, .statement ⟨"b", "x", 1⟩] := by decide +kernel

end TableSchema.Sql
