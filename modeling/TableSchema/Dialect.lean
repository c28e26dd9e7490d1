import TableSchema.Sql.Column
import TableSchema.Sql.Statement
import TableSchema.Text.Digit
import TableSchema.Translator

/-! A translator for three dialects, as far as the common types go. A dialect has its own way to
quote identifiers and its own names for types. On a statement with another type of several words
the translator fails. Hosts have this translator if they are given no other one. -/

namespace TableSchema

open Text

inductive Dialect where
  | postgres
  | mysql
  | sqlite
  deriving DecidableEq, Repr

namespace Dialect

def all : List Dialect := [.postgres, .mysql, .sqlite]

def name : Dialect → String
  | .postgres => "postgres"
  | .mysql => "mysql"
  | .sqlite => "sqlite"

def ofName? (name : String) : Option Dialect := all.find? (·.name = name)

/-! ## Identifiers -/

def doubleBackquotes : List Char → List Char
  | [] => []
  | character :: rest =>
      if character = '`' then '`' :: '`' :: doubleBackquotes rest
      else character :: doubleBackquotes rest

def identifier (dialect : Dialect) (name : List Char) : List Char :=
  match dialect with
  | .postgres | .sqlite => Sql.quote name
  | .mysql =>
      if Sql.isPlainName name then name else '`' :: doubleBackquotes name ++ ['`']

/-! ## Types -/

structure TypeNames where
  label : String
  postgres : String
  mysql : String
  sqlite : String

/-- The labels that at least one dialect renames, or that have several words. -/
def typeNames : List TypeNames := [
  ⟨"VARCHAR", "VARCHAR", "TEXT", "TEXT"⟩,
  ⟨"TIMESTAMP WITH TIME ZONE", "TIMESTAMPTZ", "TIMESTAMP", "TIMESTAMPTZ"⟩,
  ⟨"TIMESTAMP", "TIMESTAMP", "DATETIME", "TIMESTAMP"⟩,
  ⟨"BIGINT", "BIGINT", "BIGINT", "INTEGER"⟩,
  ⟨"SMALLINT", "SMALLINT", "SMALLINT", "INTEGER"⟩,
  ⟨"INTEGER", "INT", "INT", "INTEGER"⟩,
  ⟨"INT", "INT", "INT", "INTEGER"⟩,
  ⟨"BOOLEAN", "BOOLEAN", "BOOLEAN", "INTEGER"⟩,
  ⟨"NUMERIC", "DECIMAL", "DECIMAL", "REAL"⟩,
  ⟨"DOUBLE PRECISION", "DOUBLE PRECISION", "DOUBLE", "REAL"⟩,
  ⟨"REAL", "REAL", "FLOAT", "REAL"⟩,
  ⟨"BYTEA", "BYTEA", "VARBINARY", "BLOB"⟩,
  ⟨"CHAR", "CHAR", "CHAR", "TEXT"⟩]

def typeNameIn (dialect : Dialect) (names : TypeNames) : String :=
  match dialect with
  | .postgres => names.postgres
  | .mysql => names.mysql
  | .sqlite => names.sqlite

def sizedVarchar? (label : List Char) : Option (List Char) :=
  let opening := "VARCHAR(".toList
  let inside := label.drop opening.length
  let digits := inside.takeWhile isDigit
  if opening.isPrefixOf label && !digits.isEmpty && inside.dropWhile isDigit = [')'] then
    some digits
  else none

/-- The name of a type in the dialect. A label that is not in the table stays as it is, unless
it has several words: of those the dialect knows nothing. -/
def typeName? (dialect : Dialect) (label : List Char) : Option (List Char) :=
  match sizedVarchar? label with
  | some digits =>
      let word := if dialect = .sqlite then "TEXT" else "VARCHAR"
      some (word.toList ++ '(' :: digits ++ [')'])
  | none =>
      match typeNames.find? fun names => names.label.toList = label with
      | some names => some (dialect.typeNameIn names).toList
      | none => if ' ' ∈ label then none else some label

/-! ## Statements -/

def requirement? (constraint : List Char) : Option Bool :=
  if constraint = "NOT NULL".toList then some true
  else if constraint = "NULL".toList then some false
  else none

def column? (dialect : Dialect) (clause : List Char) : Option (List Char) := do
  let (name, rest) ← Sql.columnName? clause
  let place ← findPlace? Sql.typeEndsAt (some ' ') rest
  let type ← dialect.typeName? (trim (rest.take place))
  return columnLine (dialect.identifier (Sql.unquote name)) type (← requirement? (rest.drop place))

/-- A statement in the dialect. A table without columns has no parentheses. -/
def statement? (dialect : Dialect) (statement : List Char) : Option (List Char) :=
  match Sql.statements (script none [statement ++ [';']]) with
  | [found] => do
      let name := dialect.identifier found.name.toList
      match ← ((Sql.clauses found.body.toList).map (·.text)).mapM dialect.column? with
      | [] => return "CREATE TABLE ".toList ++ name
      | columns => return withoutSemicolons (createStatement name columns)
  | _ => none

def translator : Translator where
  knows name := (ofName? name).isSome
  translate? name statement :=
    (ofName? name).bind fun dialect => (dialect.statement? statement).map ([·])

end Dialect

example : Document.ddlIn ⟨[⟨"t", [⟨"a", "BIGINT", false, none⟩]⟩]⟩ Dialect.translator "sqlite"
      none =
    "CREATE TABLE t (\n  a INTEGER NULL\n);\n\n" := by decide +kernel

/-- A type of several words that is not in the table keeps the whole statement as it is. -/
example : Document.ddlIn ⟨[⟨"t", [⟨"a", "BIT VARYING", false, none⟩, ⟨"b", "INT", false, none⟩]⟩]⟩
    Dialect.translator "sqlite" none = Document.ddl
      ⟨[⟨"t", [⟨"a", "BIT VARYING", false, none⟩, ⟨"b", "INT", false, none⟩]⟩]⟩ none := by
  decide +kernel

end TableSchema
