import TableSchema.Data.JsonWriter
import TableSchema.Dialect
import TableSchema.DocumentValue
import TableSchema.Export.Csv
import TableSchema.Text.Case

/-! Exports. A document is exported as DDL, as CSV or as JSON; the name of a format may be
written in any case. -/

namespace TableSchema

inductive ExportFormat where
  | sql
  | csv
  | json
  deriving DecidableEq, Repr

namespace ExportFormat

def all : List ExportFormat := [.sql, .csv, .json]

def name : ExportFormat → String
  | .sql => "sql"
  | .csv => "csv"
  | .json => "json"

def ofName? (name : String) : Option ExportFormat := all.find? (·.name = name)

def mediaType : ExportFormat → String
  | .sql => "text/plain"
  | .csv => "text/csv"
  | .json => "application/json"

end ExportFormat

inductive ExportFault where
  | unsupportedFormat (name : String)
  | unsupportedDialect (name : String)
  deriving DecidableEq, Repr

def ExportFault.message : ExportFault → String
  | .unsupportedFormat name =>
      s!"Unsupported export format: {name} (expected one of " ++
        String.intercalate ", " (ExportFormat.all.map ExportFormat.name) ++ ")"
  | .unsupportedDialect name => s!"Unsupported SQL dialect: {name}"

def lowerCase (text : String) : String := String.ofList (Text.lower text.toList)

def Document.json (document : Document) (layout : Data.Layout) : String :=
  Data.toJson layout document.toValue

/-- The name of the dialect is looked at before anything is written. -/
def Document.ddlInNamed (document : Document) (dialect : String)
    (header : Option String := some defaultHeader) (translator : Translator := Dialect.translator) :
    Except ExportFault String :=
  if translator.knows dialect then .ok (document.ddlIn translator dialect header)
  else .error (.unsupportedDialect dialect)

def Document.exportAs (document : Document) (format : String) (dialect : Option String)
    (translator : Translator := Dialect.translator) : Except ExportFault String :=
  match ExportFormat.ofName? (lowerCase format) with
  | some .sql =>
      match dialect.filter (!·.isEmpty) with
      | some dialect => document.ddlInNamed dialect (some defaultHeader) translator
      | none => .ok document.ddl
  | some .csv => .ok document.csv
  | some .json => .ok (document.json (.indented 2))
  | none => .error (.unsupportedFormat (lowerCase format))

def exportFileName (schemaName format : String) : String :=
  let format := lowerCase format
  let extension := if format = "sql" then "txt" else format
  s!"{schemaName}-database-schema.{extension}"

example : exportFileName "shop" "SQL" = "shop-database-schema.txt" := by decide +kernel

end TableSchema
