import TableSchema.Document

/-! CSV. A record is a line of cells with commas between them; a cell is quoted if it holds a
comma, a double quote or a line feed, and double quotes in it are then doubled. -/

namespace TableSchema.Csv

/-- Whether a cell must be quoted because of a character. A carriage return is an ordinary
character. -/
def needsQuotes (character : Char) : Bool :=
  character == ',' || character == '"' || character == '\n'

def doubled : List Char → List Char
  | [] => []
  | character :: rest =>
      if character = '"' then '"' :: '"' :: doubled rest else character :: doubled rest

def cell (text : List Char) : List Char :=
  if text.any needsQuotes then '"' :: doubled text ++ ['"'] else text

def cells : List (List Char) → List Char
  | [] => []
  | [text] => cell text
  | text :: rest => cell text ++ ',' :: cells rest

def record (texts : List (List Char)) : List Char := cells texts ++ ['\n']

def file (records : List (List (List Char))) : List Char := records.flatMap record

example : record ["a".toList, "b,\"".toList] = "a,\"b,\"\"\"\n".toList := by decide

end TableSchema.Csv

namespace TableSchema

def csvColumns : List String := ["table", "field", "type", "required", "description"]

def Field.csvRecord (table : String) (field : Field) : List String :=
  [table, field.name, field.typeLabel, if field.required then "true" else "false",
    field.description.getD ""]

def Document.csvRecords (document : Document) : List (List String) :=
  csvColumns :: document.tables.flatMap fun table => table.fields.map (·.csvRecord table.name)

def Document.csv (document : Document) : String :=
  String.ofList (Csv.file (document.csvRecords.map (·.map String.toList)))

end TableSchema
