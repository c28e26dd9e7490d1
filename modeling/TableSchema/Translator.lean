import TableSchema.Ddl

/-! DDL in the dialects of other database systems. What a statement is in another dialect is up to a
translator. The library gives it one statement after the other, ends the statements that it makes
of each, and writes a statement as it is if the translator fails on it. -/

namespace TableSchema

structure Translator where
  knows (dialect : String) : Bool
  /-- What becomes of a statement in a dialect: statements without semicolons, or nothing if it
  cannot be read. -/
  translate? (dialect : String) (statement : List Char) : Option (List (List Char))

def withoutSemicolons (statement : List Char) : List Char :=
  (statement.reverse.dropWhile (· = ';')).reverse

def endStatements (statements : List (List Char)) : List Char :=
  List.intercalate ";\n".toList statements ++ [';']

def Table.ddlIn (table : Table) (translator : Translator) (dialect : String) : List Char :=
  match translator.translate? dialect (withoutSemicolons table.ddl) with
  | some statements => endStatements statements
  | none => table.ddl

def Document.ddlIn (document : Document) (translator : Translator) (dialect : String)
    (header : Option String := some defaultHeader) : String :=
  String.ofList (script header (document.tables.map (·.ddlIn translator dialect)))

/-- Statements that say nothing are ended like any other. -/
example : endStatements ["a".toList, []] = "a;\n;".toList := by decide

end TableSchema
