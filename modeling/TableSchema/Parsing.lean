import TableSchema.Diagnostic
import TableSchema.Sql.Statement

/-! Parsing of scripts. Parsing never fails: what cannot be read as a table or a column is left
out of the document and reported. -/

namespace TableSchema

open Sql

structure ParseResult where
  document : Document := {}
  diagnostics : List Diagnostic := []
  deriving DecidableEq, Repr

namespace ParseResult

def hasProblems (result : ParseResult) : Bool :=
  result.diagnostics.any (·.kind ≠ .constraint)

def ofKind (result : ParseResult) (kind : DiagnosticKind) : List Diagnostic :=
  result.diagnostics.filter (·.kind = kind)

end ParseResult

/-! ## Statements -/

def Sql.Finding.diagnostic? : Finding → Option Diagnostic
  | .statement _ => none
  | .unbalanced table line => some (.unbalancedParentheses table line)
  | .unterminated table line => some (.unterminatedStatement table line)

def statementDiagnostics (sql : List Char) : List Diagnostic :=
  (findings sql).filterMap Finding.diagnostic?

def readClause (statement : Statement) (clause : Clause) : Field ⊕ Diagnostic :=
  match classify clause.text with
  | .ok field => .inl field
  | .error refusal => .inr (.refusedClause refusal statement.name (String.ofList clause.text)
      (statement.line + Text.newlines (statement.body.toList.take clause.offset)))

/-- What one statement comes to: its table, unless that would have no fields, and the
diagnostics of its clauses, in order. -/
def readStatement (statement : Statement) : Option Table × List Diagnostic :=
  let parts := (clauses statement.body.toList).map (readClause statement)
  let fields := parts.filterMap Sum.getLeft?
  let refused := parts.filterMap Sum.getRight?
  if fields.isEmpty then
    (none, refused ++ [.emptyTable statement.name statement.line])
  else (some ⟨statement.name, fields⟩, refused)

/-! ## Scripts -/

def parseChars (sql : List Char) : ParseResult :=
  let parts := (statements sql).map readStatement
  { document := ⟨parts.filterMap (·.1)⟩
    diagnostics := statementDiagnostics sql ++ parts.flatMap (·.2) }

def parse (sql : String) : ParseResult := parseChars sql.toList

def parseDocument (sql : String) : Document := (parse sql).document

example : parse "CREATE TABLE t (id int, CHECK (1));" =
    { document := ⟨[⟨"t", [⟨"id", "INT", true, some "Primary key"⟩]⟩]⟩
      diagnostics := [.refusedClause .constraint "t" "CHECK (1)" 1] } := by decide +kernel

end TableSchema
