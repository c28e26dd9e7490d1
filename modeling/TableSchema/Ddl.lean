import TableSchema.Document
import TableSchema.Sql.Identifier

/-! Writing a schema document as DDL. Each table becomes one CREATE TABLE statement with one
line for each field, followed by a blank line; a header may come first. -/

namespace TableSchema

open Sql

def defaultHeader : String := "-- Database Schema"

def columnLine (name typeLabel : List Char) (required : Bool) : List Char :=
  "  ".toList ++ name ++ ' ' :: typeLabel ++
    (if required then " NOT NULL".toList else " NULL".toList)

def joinColumns : List (List Char) → List Char
  | [] => []
  | [line] => line ++ ['\n']
  | line :: rest => line ++ ',' :: '\n' :: joinColumns rest

def createStatement (name : List Char) (columns : List (List Char)) : List Char :=
  "CREATE TABLE ".toList ++ name ++ " (\n".toList ++ joinColumns columns ++ ");".toList

def headerLines : Option String → List Char
  | none => []
  | some header => if header.isEmpty then [] else header.toList ++ "\n\n".toList

def script (header : Option String) (statements : List (List Char)) : List Char :=
  headerLines header ++ statements.flatMap (· ++ "\n\n".toList)

def Field.ddl (field : Field) : List Char :=
  columnLine (quote field.name.toList) field.typeLabel.toList field.required

def Table.ddl (table : Table) : List Char :=
  createStatement (quote table.name.toList) (table.fields.map Field.ddl)

def Document.ddl (document : Document) (header : Option String := some defaultHeader) : String :=
  String.ofList (script header (document.tables.map Table.ddl))

example : String.ofList (Table.ddl ⟨"Order Items", [⟨"id", "UUID", true, none⟩]⟩) =
    "CREATE TABLE \"Order Items\" (\n  id UUID NOT NULL\n);" := by decide +kernel

end TableSchema
