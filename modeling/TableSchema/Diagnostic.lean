import TableSchema.Sql.Column

/-! Diagnostics: what a script holds that contributes nothing to its schema document, and why. -/

namespace TableSchema

inductive DiagnosticKind where
  | constraint
  | unrecognizedClause
  | unterminatedStatement
  | unbalancedParentheses
  | emptyTable
  deriving DecidableEq, Repr

namespace DiagnosticKind

def all : List DiagnosticKind :=
  [.constraint, .unrecognizedClause, .unterminatedStatement, .unbalancedParentheses, .emptyTable]

def name : DiagnosticKind → String
  | .constraint => "constraint"
  | .unrecognizedClause => "unrecognized_clause"
  | .unterminatedStatement => "unterminated_statement"
  | .unbalancedParentheses => "unbalanced_parentheses"
  | .emptyTable => "empty_table"

end DiagnosticKind

inductive Diagnostic where
  | unbalancedParentheses (table : String) (line : Nat)
  | unterminatedStatement (table : String) (line : Nat)
  | emptyTable (table : String) (line : Nat)
  | refusedClause (refusal : Sql.Refusal) (table clause : String) (line : Nat)
  deriving DecidableEq, Repr

namespace Diagnostic

/-- Only a constraint of a table is left out as a matter of course. -/
def kind : Diagnostic → DiagnosticKind
  | .unbalancedParentheses .. => .unbalancedParentheses
  | .unterminatedStatement .. => .unterminatedStatement
  | .emptyTable .. => .emptyTable
  | .refusedClause .constraint .. => .constraint
  | .refusedClause .. => .unrecognizedClause

def message : Diagnostic → String
  | .unbalancedParentheses table _ => s!"CREATE TABLE {table} has no closing parenthesis"
  | .unterminatedStatement table _ => s!"CREATE TABLE {table} is not terminated by ';'"
  | .emptyTable table _ => s!"CREATE TABLE {table} has no column definitions"
  | .refusedClause refusal .. => refusal.message

def table : Diagnostic → String
  | .unbalancedParentheses table _ | .unterminatedStatement table _ | .emptyTable table _
  | .refusedClause _ table _ _ => table

def line : Diagnostic → Nat
  | .unbalancedParentheses _ line | .unterminatedStatement _ line | .emptyTable _ line
  | .refusedClause _ _ _ line => line

def clause? : Diagnostic → Option String
  | .refusedClause _ _ clause _ => some clause
  | _ => none

end Diagnostic

end TableSchema
