import TableSchema.Proofs.PlainColumns

/-! # Round trip

A document of speakable names and types is written as a script that is read as the same document,
but for what a script cannot say: descriptions are lost, and a field of the name `id` is the primary
key whatever it was before. Other plain types change to their labels on the way.
-/

namespace TableSchema

open Sql Text

/-! ## Speakable documents -/

structure Field.Speakable (field : Field) : Prop where
  name : IsColumnName field.name.toList
  label : PlainLabel field.typeLabel.toList

structure Table.Speakable (table : Table) : Prop where
  name : Tame table.name.toList
  nonempty : table.fields ≠ []
  fields : ∀ field ∈ table.fields, field.Speakable

def Document.Speakable (document : Document) : Prop := ∀ table ∈ document.tables, table.Speakable

/-! ## Documents that are read back -/

def Field.reread (field : Field) : Field :=
  if field.name = "id" then
    { field with required := true, description := some primaryKeyDescription }
  else { field with description := none }

def Table.reread (table : Table) : Table := { table with fields := table.fields.map Field.reread }

def Document.reread (document : Document) : Document := ⟨document.tables.map Table.reread⟩

/-- The field has no other description and no less of a requirement than it is read with. -/
def Field.Settled (field : Field) : Prop :=
  (field.name = "id" → field.required = true) ∧
    field.description = if field.name = "id" then some primaryKeyDescription else none

instance (field : Field) : Decidable field.Settled := inferInstanceAs (Decidable (_ ∧ _))

theorem Field.reread_eq_iff (field : Field) : field.reread = field ↔ field.Settled := by
  rcases field with ⟨name, label, required, description⟩
  unfold reread Settled
  by_cases key : name = "id"
  · simp only [key, if_true, mk.injEq, true_and, true_implies]
    constructor
    · rintro ⟨same, same'⟩
      exact ⟨same.symm, same'.symm⟩
    · rintro ⟨same, same'⟩
      exact ⟨same.symm, same'.symm⟩
  · simp only [key, if_false, mk.injEq, true_and, false_implies]
    exact eq_comm

theorem map_eq_self_iff {α : Type} {change : α → α} {elements : List α} :
    elements.map change = elements ↔ ∀ element ∈ elements, change element = element := by
  have same := List.map_eq_map_iff (f := change) (g := id) (l := elements)
  rwa [List.map_id] at same

theorem Document.reread_eq_iff (document : Document) :
    document.reread = document ↔
      ∀ table ∈ document.tables, ∀ field ∈ table.fields, field.Settled := by
  rcases document with ⟨tables⟩
  simp only [reread, mk.injEq, ← Field.reread_eq_iff]
  rw [map_eq_self_iff]
  apply forall₂_congr
  intro table _
  rcases table with ⟨name, fields⟩
  simp only [Table.reread, Table.mk.injEq, true_and]
  exact map_eq_self_iff

/-! ## Columns that are read -/

structure Field.Writable (field : Field) : Prop where
  name : IsColumnName field.name.toList
  type : PlainType field.typeLabel.toList

structure Table.Writable (table : Table) : Prop where
  name : Tame table.name.toList
  nonempty : table.fields ≠ []
  fields : ∀ field ∈ table.fields, field.Writable

def Document.Writable (document : Document) : Prop := ∀ table ∈ document.tables, table.Writable

def Field.relabelled (field : Field) : Field :=
  { field with typeLabel := String.ofList (Sql.typeLabel field.typeLabel.toList) }

def Table.relabelled (table : Table) : Table :=
  { table with fields := table.fields.map Field.relabelled }

def Document.relabelled (document : Document) : Document :=
  ⟨document.tables.map Table.relabelled⟩

theorem Field.Writable.classify_column {field : Field} (writable : field.Writable) :
    classify field.column = .ok field.relabelled.reread := by
  have key : field.name = "id" ↔ field.name.toList = ['i', 'd'] :=
    String.toList_inj.symm
  rw [column, Sql.classify_column writable.name writable.type, String.ofList_toList]
  simp only [reread, relabelled, key]
  split
  · rename_i named
    simp [named]
  · rename_i other
    simp [other]

theorem Table.Writable.rereadAs {table : Table} (writable : table.Writable) :
    table.RereadAs table.relabelled.reread where
  sound := {
    readable := writable.name.readable
    enclosed := by
      intro column member
      rcases List.mem_map.mp member with ⟨field, listed, rfl⟩
      have here := writable.fields field listed
      exact enclosed_column here.name.tame here.type field.required }
  name := rfl
  nonempty := writable.nonempty
  fields := by
    rw [reread, relabelled, List.map_map, List.forall₂_map_right_iff, List.forall₂_same]
    exact fun field listed => (writable.fields field listed).classify_column

/-- A writable document is read as a document of the same names. -/
theorem parse_ddl_of_writable {document : Document} (writable : document.Writable)
    {header : Option String} (preamble : ∀ line ∈ header, IsPreamble line) :
    parse (document.ddl header) = { document := document.relabelled.reread } := by
  refine parse_ddl ?_ preamble
  rw [Document.reread, Document.relabelled, List.map_map, List.forall₂_map_right_iff,
    List.forall₂_same]
  exact fun table listed => (writable table listed).rereadAs

/-! ## Speakable documents are read -/

theorem Field.Speakable.relabelled_eq {field : Field} (speakable : field.Speakable) :
    field.relabelled = field := by
  rw [relabelled, speakable.label.typeLabel_eq, String.ofList_toList]

theorem Table.Speakable.writable {table : Table} (speakable : table.Speakable) :
    table.Writable where
  name := speakable.name
  nonempty := speakable.nonempty
  fields field listed :=
    ⟨(speakable.fields field listed).name, (speakable.fields field listed).label.plainType⟩

theorem Table.Speakable.rereadAs {table : Table} (speakable : table.Speakable) :
    table.RereadAs table.reread := by
  have relabelled : table.relabelled = table := by
    rw [Table.relabelled, map_eq_self_iff.mpr]
    exact fun field listed => (speakable.fields field listed).relabelled_eq
  have read := speakable.writable.rereadAs
  rwa [relabelled] at read

/-- A speakable document is read back as what a script can say of it, and nothing is left out. It is
read back as itself if no field has a description, except that fields of the name `id` are
required and described as primary keys. -/
theorem parse_ddl_of_speakable {document : Document} (speakable : document.Speakable)
    {header : Option String} (preamble : ∀ line ∈ header, IsPreamble line) :
    parse (document.ddl header) = { document := document.reread } ∧
      (document.reread = document ↔
        ∀ table ∈ document.tables, ∀ field ∈ table.fields, field.Settled) := by
  refine ⟨parse_ddl ?_ preamble, document.reread_eq_iff⟩
  rw [Document.reread, List.forall₂_map_right_iff, List.forall₂_same]
  exact fun table listed => (speakable table listed).rereadAs

/-- Names may hold whatever ends names, columns, statements and lines. -/
theorem tricky_document_round_trips :
    let document : Document := ⟨[⟨"a);--", [⟨"id", "UUID", true, some "Primary key"⟩,
      ⟨"say \"hi\",\n$$", "VARCHAR(12)", false, none⟩]⟩]⟩
    document.Speakable ∧ (∀ line ∈ some "-- two tables", IsPreamble line) ∧
      parse (document.ddl (some "-- two tables")) = { document } := by
  intro document
  have id : Field.Speakable ⟨"id", "UUID", true, some "Primary key"⟩ :=
    ⟨⟨by decide, by decide, by decide⟩,
      @PlainLabel.words [['U', 'U', 'I', 'D']] (by decide) (by simp) (by decide) (by decide)⟩
  have quoted : Field.Speakable ⟨"say \"hi\",\n$$", "VARCHAR(12)", false, none⟩ :=
    ⟨⟨by decide, by decide, by decide⟩, @PlainLabel.varchar ['1', '2'] (by decide)
      (List.all_iff_forall_prop.mp (by decide))⟩
  have speakable : document.Speakable := by
    intro table listed
    cases List.mem_singleton.mp listed
    exact ⟨by decide, by decide, by simpa using ⟨id, quoted⟩⟩
  have preamble : ∀ line ∈ some "-- two tables", IsPreamble line := by
    rintro _ ⟨⟩
    decide
  have read := parse_ddl_of_speakable speakable preamble
  refine ⟨speakable, preamble, read.1.trans ?_⟩
  rw [read.2.mpr (by decide)]

/-- A script does not say descriptions. -/
theorem description_is_not_read :
    let document : Document := ⟨[⟨"t", [⟨"a", "TEXT", false, some "x"⟩]⟩]⟩
    document.Speakable ∧ parse document.ddl ≠ { document } := by
  intro document
  have column : Field.Speakable ⟨"a", "TEXT", false, some "x"⟩ :=
    ⟨⟨by decide, by decide, by decide⟩,
      @PlainLabel.words [['T', 'E', 'X', 'T']] (by decide) (by simp) (by decide) (by decide)⟩
  refine ⟨?_, by decide +kernel⟩
  intro table listed
  cases List.mem_singleton.mp listed
  exact ⟨by decide, by decide, by simpa using column⟩

end TableSchema
