import TableSchema.Export.Format

/-! Reports for a terminal: a listing of the tables of a document, and a list of what was left
out of it. -/

namespace TableSchema

def joinLines (lines : List (List Char)) : List Char := ['\n'].intercalate lines

/-! ## Listing -/

inductive RenderFault where
  /-- The columns of a table without fields have no width. -/
  | noFields
  | notExported (fault : ExportFault)
  deriving DecidableEq, Repr

def RenderFault.message : RenderFault → String
  | .noFields => "max() arg is an empty sequence"
  | .notExported fault => fault.message

def padRight (width : Nat) (text : List Char) : List Char :=
  text ++ List.replicate (width - text.length) ' '

def Field.listingLine (width : Nat) (field : Field) : List Char :=
  "  ".toList ++ padRight width field.name.toList ++ "  ".toList ++ field.typeLabel.toList ++
    (if field.required then "  [required]".toList else "  [optional]".toList) ++
    match field.description with
    | some description => if description.isEmpty then [] else "  ".toList ++ description.toList
    | none => []

def Table.listingLines (table : Table) : Except RenderFault (List (List Char)) :=
  let heading := table.name.toList ++ s!" ({table.fields.length} fields)".toList
  match (table.fields.map (·.name.length)).max? with
  | none => .error .noFields
  | some width => .ok (heading :: table.fields.map (·.listingLine width) ++ [[]])

def Document.listing (document : Document) : Except RenderFault String :=
  if document.isEmpty then .ok "No tables found.\n"
  else do
    let lines ← document.tables.mapM Table.listingLines
    .ok (String.ofList (joinLines lines.flatten))

def Document.render (document : Document) (format : String) (dialect : Option String)
    (translator : Translator := Dialect.translator) : Except RenderFault String :=
  if format = "tables" then document.listing
  else do
    let text ← (document.exportAs format dialect translator).mapError RenderFault.notExported
    .ok (if text.toList.getLast? = some '\n' then text else text ++ "\n")

example : (Document.listing ⟨[⟨"t", [⟨"id", "UUID", true, none⟩]⟩]⟩).toOption =
    some "t (1 fields)\n  id  UUID  [required]\n" := by decide +kernel

/-! ## Check report -/

def Diagnostic.reportEntry (diagnostic : Diagnostic) : List Char :=
  let table := if diagnostic.table.isEmpty then "" else s!" [{diagnostic.table}]"
  let clause := match diagnostic.clause? with
    | some clause => if clause.isEmpty then "" else s!": {clause}"
    | none => ""
  s!"line {diagnostic.line}{table} {diagnostic.kind.name} - {diagnostic.message}{clause}".toList

def ParseResult.summary (result : ParseResult) : List Char :=
  let tables := result.document.tables.length
  let fields := result.document.fieldCount
  let diagnostics := result.diagnostics.length
  s!"{tables} table(s), {fields} field(s), {diagnostics} diagnostic(s)".toList

def ParseResult.report (result : ParseResult) : String :=
  String.ofList (joinLines (result.diagnostics.map Diagnostic.reportEntry ++ [result.summary]))

end TableSchema
