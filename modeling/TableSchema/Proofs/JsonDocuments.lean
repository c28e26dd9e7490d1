import TableSchema.Export.Format
import TableSchema.Proofs.JsonReading

/-! # Documents in JSON

A document can be told from its value, and its value from every JSON text that is written of it,
however the text is laid out. So a JSON export holds its document, and no two documents share one.
-/

namespace TableSchema

open Data

/-! ## Parts of values -/

namespace Value

def get? (value : Value) (key : String) : Option Value :=
  match value with
  | .object entries => entry? entries key
  | _ => none

def text? : Value → Option String
  | .text value => some value
  | _ => none

def bool? : Value → Option Bool
  | .bool value => some value
  | _ => none

def items? : Value → Option (List Value)
  | .list items => some items
  | _ => none

end Value

/-! ## Documents from values -/

/-- The field that a value describes. A field without an entry for its description has none. -/
def Field.ofValue? (value : Value) : Option Field := do
  let name ← (value.get? "name").bind Value.text?
  let typeLabel ← (value.get? "type").bind Value.text?
  let required ← (value.get? "required").bind Value.bool?
  some { name, typeLabel, required, description := (value.get? "description").bind Value.text? }

def Table.ofValue? (value : Value) : Option Table := do
  let name ← (value.get? "name").bind Value.text?
  let items ← (value.get? "fields").bind Value.items?
  let fields ← items.mapM Field.ofValue?
  some { name, fields }

def Document.ofValue? (value : Value) : Option Document := do
  let items ← (value.get? "tables").bind Value.items?
  let tables ← items.mapM Table.ofValue?
  some { tables }

theorem Field.get?_description (field : Field) :
    field.toValue.get? "description" = field.description.map .text := by
  rcases field with ⟨name, typeLabel, required, _ | description⟩ <;> rfl

theorem Field.ofValue?_toValue (field : Field) : Field.ofValue? field.toValue = some field := by
  rcases field with ⟨name, typeLabel, required, _ | description⟩ <;> rfl

theorem mapM_map_of_read {read : Value → Option α} {write : α → Value}
    (inverse : ∀ element, read (write element) = some element) (elements : List α) :
    (elements.map write).mapM read = some elements := by
  induction elements with
  | nil => rfl
  | cons element rest induction => simp [inverse, induction]

theorem Table.ofValue?_toValue (table : Table) : Table.ofValue? table.toValue = some table := by
  have name : table.toValue.get? "name" = some (.text table.name) := rfl
  have fields : table.toValue.get? "fields" = some (.list (table.fields.map Field.toValue)) := rfl
  simp [Table.ofValue?, name, fields, Value.text?, Value.items?,
    mapM_map_of_read Field.ofValue?_toValue]

theorem Document.ofValue?_toValue (document : Document) :
    Document.ofValue? document.toValue = some document := by
  have tables : document.toValue.get? "tables" =
      some (.list (document.tables.map Table.toValue)) := rfl
  simp [Document.ofValue?, tables, Value.items?, mapM_map_of_read Table.ofValue?_toValue]

/-! ## Documents are plain -/

theorem itemsArePlain_iff {room : Nat} {items : List Value} :
    Value.itemsArePlain room items = true ↔ ∀ item ∈ items, item.isPlain room = true := by
  induction items with
  | nil => simp [Value.itemsArePlain]
  | cons item rest induction => simp [Value.itemsArePlain, induction]

theorem Field.isPlain_toValue (field : Field) (room : Nat) :
    field.toValue.isPlain (room + 1) = true := by
  rcases field with ⟨name, typeLabel, required, _ | description⟩ <;>
    simp [Field.toValue, Value.isPlain, Value.entriesArePlain]

theorem Table.isPlain_toValue (table : Table) (room : Nat) :
    table.toValue.isPlain (room + 3) = true := by
  simp [Table.toValue, Value.isPlain, Value.entriesArePlain, itemsArePlain_iff,
    Field.isPlain_toValue]

theorem Document.isPlain_toValue (document : Document) (room : Nat) :
    document.toValue.isPlain (room + 5) = true := by
  simp [Document.toValue, Document.entries, Value.isPlain, Value.entriesArePlain,
    itemsArePlain_iff, Table.isPlain_toValue]

/-! ## Exports -/

theorem Document.ofJson_json (document : Document) (layout : Layout) :
    ofJson (document.json layout).toList = .ok document.toValue :=
  ofJson_toJson layout (document.isPlain_toValue 950)

/-- The JSON export of a document, on one line or with any indentation, is ASCII and is read as the
document's value. The document is found again in the value, where a field has an entry for its
description if and only if it has a description. So equal exports are exports of one document. -/
theorem json_export_holds_document (document : Document) (indent : Option Int) :
    IsAscii (document.json (.ofSpaces indent)).toList ∧
      ofJson (document.json (.ofSpaces indent)).toList = .ok document.toValue ∧
      Document.ofValue? document.toValue = some document ∧
      (∀ field : Field, field.toValue.get? "description" = field.description.map .text) ∧
      ∀ (other : Document) (otherIndent : Option Int),
        document.json (.ofSpaces indent) = other.json (.ofSpaces otherIndent) →
          document = other := by
  refine ⟨isAscii_toJson _ (document.isPlain_toValue 0), document.ofJson_json _,
    document.ofValue?_toValue, Field.get?_description, fun other otherIndent same => ?_⟩
  have values : document.toValue = other.toValue := by
    have read := document.ofJson_json (.ofSpaces indent)
    rw [same, other.ofJson_json] at read
    exact (Except.ok.inj read).symm
  have found := document.ofValue?_toValue
  rw [values, other.ofValue?_toValue] at found
  exact (Option.some.inj found).symm

end TableSchema
