import TableSchema.Data.Value
import TableSchema.Parsing

/-! Documents, diagnostics and results of parsing as data values: the form in which they leave
the library as JSON. -/

namespace TableSchema

/-- A field has an entry for its description only if it has one. -/
def Field.toValue (field : Field) : Value :=
  .object ([("name", .text field.name), ("type", .text field.typeLabel),
    ("required", .bool field.required)] ++
    match field.description with
    | some description => [("description", .text description)]
    | none => [])

def Table.toValue (table : Table) : Value :=
  .object [("name", .text table.name), ("fields", .list (table.fields.map Field.toValue))]

namespace Document

def entries (document : Document) : List (String × Value) :=
  [("tables", .list (document.tables.map Table.toValue))]

def toValue (document : Document) : Value := .object document.entries

end Document

def Diagnostic.toValue (diagnostic : Diagnostic) : Value :=
  .object [("kind", .text diagnostic.kind.name), ("message", .text diagnostic.message),
    ("table", .text diagnostic.table),
    ("text", match diagnostic.clause? with | some clause => .text clause | none => .null),
    ("line", .int diagnostic.line)]

namespace ParseResult

def entries (result : ParseResult) : List (String × Value) :=
  result.document.entries ++ [("diagnostics", .list (result.diagnostics.map Diagnostic.toValue))]

def toValue (result : ParseResult) : Value := .object result.entries

end ParseResult

end TableSchema
